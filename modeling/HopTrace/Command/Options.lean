/-!
# Options on a command line

An option has a name, written after two dashes, and may have a letter, written
after one; letters can stand together. A value follows an equals sign or the
letter, or is the next word. Options are heeded in the order in which they come.
-/

namespace HopTrace.Command

structure OptionSpec where
  name : String
  letter : Option Char := none
  valued : Bool := true
  deriving DecidableEq, Repr

/-- Why a command line is not carried out. -/
inductive Stop
  | usage
  | version
  | help
  deriving DecidableEq, Repr

variable {σ : Type}

/-- Whether a word can be a value of its own. A lone dash can. -/
def isValue (word : String) : Bool := word = "-" || !word.startsWith "-"

/-- What stands before the first equals sign, and what stands after it if there is one. -/
def splitEquals : List Char → List Char × Option (List Char)
  | [] => ([], none)
  | '=' :: s => ([], some s)
  | c :: s => ((splitEquals s).1.cons c, (splitEquals s).2)

/-- The value that follows a letter. -/
def attached : List Char → Option String
  | [] => none
  | '=' :: s => some (String.ofList s)
  | s => some (String.ofList s)

/-- Heeds letters that stand together. The last may be an option that lacks its value. -/
def readLetters (specs : List OptionSpec) (heed : σ → String → String → Except Stop σ) :
    σ → List Char → Except Stop (σ × Option OptionSpec)
  | s, [] => .ok (s, none)
  | s, c :: rest => do
    match specs.find? (·.letter == some c) with
    | none => .error .usage
    | some spec =>
      if spec.valued then
        match attached rest with
        | some value => return (← heed s spec.name value, none)
        | none => return (s, some spec)
      else readLetters specs heed (← heed s spec.name "") rest

/-- Heeds an option written by name. It may lack its value. -/
def readName (specs : List OptionSpec) (heed : σ → String → String → Except Stop σ) (s : σ)
    (text : List Char) : Except Stop (σ × Option OptionSpec) := do
  let (name, value) := splitEquals text
  match specs.find? (·.name == String.ofList name), value with
  | none, _ => .error .usage
  | some spec, some value =>
    if spec.valued then return (← heed s spec.name (String.ofList value), none)
    else .error .usage
  | some spec, none =>
    if spec.valued then return (s, some spec) else return (← heed s spec.name "", none)

/-- Heeds the option that a word is, if it is one. -/
def readWord? (specs : List OptionSpec) (heed : σ → String → String → Except Stop σ) (s : σ)
    (word : String) : Option (Except Stop (σ × Option OptionSpec)) :=
  match word.toList with
  | '-' :: '-' :: text => some (readName specs heed s text)
  | '-' :: c :: letters => some (readLetters specs heed s (c :: letters))
  | _ => none

/-- Heeds options up to the first word that is none, which is left with all that follows it. Two
dashes on their own end the options; nothing may follow them. -/
def readOptions (specs : List OptionSpec) (heed : σ → String → String → Except Stop σ) :
    σ → List String → Except Stop (σ × List String)
  | s, [] => .ok (s, [])
  | s, word :: rest =>
    if word = "--" then if rest.isEmpty then .ok (s, []) else .error .usage
    else
      match readWord? specs heed s word with
      | none => .ok (s, word :: rest)
      | some opened => do
        match ← opened, rest with
        | (s, none), rest => readOptions specs heed s rest
        | (s, some spec), value :: rest =>
          if isValue value then readOptions specs heed (← heed s spec.name value) rest
          else .error .usage
        | (_, some _), [] => .error .usage

end HopTrace.Command
