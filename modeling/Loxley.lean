import Loxley.Main
import Loxley.Proofs.Addressing
import Loxley.Proofs.CallLimit
import Loxley.Proofs.Datum.Places
import Loxley.Proofs.Distances
import Loxley.Proofs.Faults
import Loxley.Proofs.ForLoop.Meaning
import Loxley.Proofs.Globals
import Loxley.Proofs.Joining
import Loxley.Proofs.Lexical.Session
import Loxley.Proofs.Number.Identity
import Loxley.Proofs.Outline.Decoding
import Loxley.Proofs.Parser.Bounds
import Loxley.Proofs.Prompt.Traces
import Loxley.Proofs.Rendering
import Loxley.Proofs.TestCase.Extraction
import Loxley.Proofs.Undefined
