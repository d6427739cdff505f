import Loxley.Fault
import Loxley.Value

/-!
# Environments

The scopes that exist while a program runs. They live in a heap, because closures keep them alive and
share them. An environment is created inside an older one, so following the enclosing environments
always ends.
-/

set_option autoImplicit false

namespace Loxley

/-- The variables of one scope, and the environment around it. -/
structure Environment where
  bindings : List (Text × Value) := []
  enclosing : Option EnvironmentId := none

namespace Environment

/-- The value of a variable of this very scope. -/
def lookup? (environment : Environment) (name : Text) : Option Value :=
  environment.bindings.lookup name

/-- Whether this very scope has a variable. -/
def binds (environment : Environment) (name : Text) : Bool :=
  (environment.lookup? name).isSome

/-- Sets the variable of a name in a list of variables, adding it if it is missing. -/
def setBinding (name : Text) (value : Value) : List (Text × Value) → List (Text × Value)
  | [] => [(name, value)]
  | binding :: others =>
    if binding.1 == name then (name, value) :: others
    else binding :: setBinding name value others

/-- Sets a variable of this scope, adding it if it is missing. -/
def set (environment : Environment) (name : Text) (value : Value) : Environment :=
  { environment with bindings := setBinding name value environment.bindings }

/-- The names of the variables of this scope, in byte order. -/
def names (environment : Environment) : List Text :=
  (environment.bindings.map (·.1)).mergeSort Text.le

end Environment

/-- All environments that were ever created; an identity is an index. -/
structure Heap where
  environments : Array Environment := #[]

namespace Heap

/-- The identity that the next environment gets. -/
def next (heap : Heap) : EnvironmentId :=
  heap.environments.size

/-- Creates an empty environment, whose identity is `next`. -/
def create (heap : Heap) (enclosing : Option EnvironmentId) : Heap :=
  { environments := heap.environments.push { enclosing } }

def enclosing? (heap : Heap) (environment : EnvironmentId) : Option EnvironmentId :=
  heap.environments[environment]?.bind (·.enclosing)

/-- An environment and those around it, from the inside out. -/
def chain (heap : Heap) (environment : EnvironmentId) : List EnvironmentId :=
  match heap.enclosing? environment with
  | none => [environment]
  | some outer => if outer < environment then environment :: heap.chain outer else [environment]
termination_by environment

/-- The value of a variable in exactly one environment. -/
def lookup? (heap : Heap) (environment : EnvironmentId) (name : Text) : Option Value :=
  heap.environments[environment]?.bind (·.lookup? name)

/-- Whether exactly one environment has a variable. -/
def binds (heap : Heap) (environment : EnvironmentId) (name : Text) : Bool :=
  (heap.lookup? environment name).isSome

/-- Sets a variable in exactly one environment, adding it if it is missing. -/
def define (heap : Heap) (environment : EnvironmentId) (name : Text) (value : Value) : Heap :=
  { environments := heap.environments.modify environment (·.set name value) }

/-- The nearest environment along the chain that has a variable. -/
def owner? (heap : Heap) (environment : EnvironmentId) (name : Text) : Option EnvironmentId :=
  (heap.chain environment).find? (heap.binds · name)

/-- The value of a variable in the nearest environment that has it. -/
def get? (heap : Heap) (environment : EnvironmentId) (name : Text) : Option Value :=
  (heap.chain environment).findSome? (heap.lookup? · name)

/-- The environment a number of steps outwards. -/
def ancestor? (heap : Heap) (environment : EnvironmentId) (distance : Nat) :
    Option EnvironmentId :=
  (heap.chain environment)[distance]?

/-- The environment a number of steps outwards, if it has a variable. -/
def ownerAt (heap : Heap) (environment : EnvironmentId) (distance : Nat) (name : Text) :
    Except Fault (Option EnvironmentId) :=
  match heap.ancestor? environment distance with
  | none => .error (.chainTooShort distance)
  | some owner => .ok (if heap.binds owner name then some owner else none)

/-- The value of a variable in exactly the environment a number of steps outwards. -/
def getAt (heap : Heap) (environment : EnvironmentId) (distance : Nat) (name : Text) :
    Except Fault (Option Value) :=
  match heap.ancestor? environment distance with
  | none => .error (.chainTooShort distance)
  | some owner => .ok (heap.lookup? owner name)

/-- Sets a variable in the nearest environment that has it. -/
def assign? (heap : Heap) (environment : EnvironmentId) (name : Text) (value : Value) :
    Option Heap :=
  (heap.owner? environment name).map fun owner => heap.define owner name value

/-- Sets a variable that exists in exactly the environment a number of steps outwards. -/
def assignAt (heap : Heap) (environment : EnvironmentId) (distance : Nat) (name : Text)
    (value : Value) : Except Fault (Option Heap) :=
  (heap.ownerAt environment distance name).map fun owner =>
    owner.map fun owner => heap.define owner name value

/-- The names of the variables of exactly one environment, in byte order. -/
def names (heap : Heap) (environment : EnvironmentId) : List Text :=
  (heap.environments[environment]?.map (·.names)).getD []

/-- The variables of exactly one environment with their values, in byte order of their names. -/
def contents (heap : Heap) (environment : EnvironmentId) : List (Text × Value) :=
  (heap.names environment).filterMap fun name =>
    (heap.lookup? environment name).map fun value => (name, value)

end Heap

end Loxley
