import Loxley.Number.Display

/-!
# Tokens

The words of the language: symbols and keywords with a fixed spelling, identifiers, and the literals
for numbers and strings. A token remembers the text it was read from and the line where that text
ends.
-/

set_option autoImplicit false

namespace Loxley

/-- Operators and delimiters. -/
inductive Symbol where
  | minus | plus | slash | star | bang | equal
  | equalEqual | bangEqual | less | greater | lessEqual | greaterEqual
  | comma | dot | semicolon | leftParen | rightParen | leftBrace | rightBrace
deriving DecidableEq, Repr

namespace Symbol

def spelling : Symbol → Text
  | minus => "-"
  | plus => "+"
  | slash => "/"
  | star => "*"
  | bang => "!"
  | equal => "="
  | equalEqual => "=="
  | bangEqual => "!="
  | less => "<"
  | greater => ">"
  | lessEqual => "<="
  | greaterEqual => ">="
  | comma => ","
  | dot => "."
  | semicolon => ";"
  | leftParen => "("
  | rightParen => ")"
  | leftBrace => "\x7b"
  | rightBrace => "\x7d"

def all : List Symbol :=
  [minus, plus, slash, star, bang, equal, equalEqual, bangEqual, less, greater, lessEqual,
    greaterEqual, comma, dot, semicolon, leftParen, rightParen, leftBrace, rightBrace]

def ofText? (text : Text) : Option Symbol :=
  all.find? fun symbol => symbol.spelling == text

end Symbol

/-- Reserved words, named by their spelling. -/
inductive Keyword where
  | andWord | classWord | elseWord | falseWord | forWord | funWord | ifWord | nilWord
  | orWord | printWord | returnWord | superWord | thisWord | trueWord | varWord | whileWord
deriving DecidableEq, Repr

namespace Keyword

def spelling : Keyword → Text
  | andWord => "and"
  | classWord => "class"
  | elseWord => "else"
  | falseWord => "false"
  | forWord => "for"
  | funWord => "fun"
  | ifWord => "if"
  | nilWord => "nil"
  | orWord => "or"
  | printWord => "print"
  | returnWord => "return"
  | superWord => "super"
  | thisWord => "this"
  | trueWord => "true"
  | varWord => "var"
  | whileWord => "while"

def all : List Keyword :=
  [andWord, classWord, elseWord, falseWord, forWord, funWord, ifWord, nilWord, orWord, printWord,
    returnWord, superWord, thisWord, trueWord, varWord, whileWord]

def ofText? (text : Text) : Option Keyword :=
  all.find? fun keyword => keyword.spelling == text

/-- The spelling in capitals, which names the keyword's kind of token. -/
def name (keyword : Keyword) : Text :=
  keyword.spelling.map (· - 32)

end Keyword

/-- What a literal token or expression stands for. -/
inductive Literal where
  | nil
  | bool (value : Bool)
  | number (value : Float)
  | string (value : Text)
deriving DecidableEq

namespace Literal

def boolText (value : Bool) : Text :=
  if value then "true" else "false"

/-- The text that a token listing shows for a literal; nothing is shown for `nil`. -/
def listing? : Literal → Option Text
  | nil => none
  | bool value => some (boolText value)
  | number value => some (Number.write Number.listingFormat value)
  | string value => some value

end Literal

/-- The kinds of token. -/
inductive TokenKind where
  | endOfFile
  | identifier
  | string
  | number
  | symbol (mark : Symbol)
  | keyword (word : Keyword)
deriving DecidableEq, Repr

namespace TokenKind

/-- The name of a kind: symbols stand for themselves. -/
def name : TokenKind → Text
  | endOfFile => "EOF"
  | identifier => "IDENT"
  | string => "STRING"
  | number => "NUMBER"
  | symbol mark => mark.spelling
  | keyword word => word.name

def all : List TokenKind :=
  [endOfFile, identifier, string, number] ++ Symbol.all.map symbol ++ Keyword.all.map keyword

def ofName? (text : Text) : Option TokenKind :=
  all.find? fun kind => kind.name == text

end TokenKind

/-- A word of the source. -/
structure Token where
  kind : TokenKind
  /-- The source text of the token; empty at the end of the source. -/
  lexeme : Text
  /-- The value of a number or string token, and otherwise nil. -/
  literal : Literal := .nil
  /-- The line on which the lexeme ends, counted from one. -/
  line : Int
deriving DecidableEq

namespace Token

/-- The listing of a token: kind, lexeme and literal. -/
def listing (token : Token) : Text :=
  let head := token.kind.name ++ 32 :: token.lexeme
  match token.literal.listing? with
  | none => head
  | some text => head ++ 32 :: text

end Token

end Loxley
