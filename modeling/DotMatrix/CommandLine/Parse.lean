import DotMatrix.CommandLine.Options

/-! Reading a command line word by word. A value that stands in a word of its own is checked only when
the next word has been recognised, so a word that nothing is known of is refused first. -/
namespace DotMatrix.CommandLine

/-- The options that take a value. -/
inductive Setting where
  | output | format | maxSteps | stopAt
deriving DecidableEq, Repr

/-- The options that take none. -/
inductive Switch where
  | step | legacyFlags | header | help | version
deriving DecidableEq, Repr

/-- What an option is by its name. -/
inductive Kind where
  | setting (setting : Setting)
  | switch (switch : Switch)
deriving DecidableEq, Repr

def longOption? : String → Option Kind
  | "output" => some (.setting .output)
  | "format" => some (.setting .format)
  | "max-steps" => some (.setting .maxSteps)
  | "stop-at" => some (.setting .stopAt)
  | "step" => some (.switch .step)
  | "legacy-flags" => some (.switch .legacyFlags)
  | "header" => some (.switch .header)
  | "help" => some (.switch .help)
  | "version" => some (.switch .version)
  | _ => none

def shortOption? : Char → Option Kind
  | 'o' => some (.setting .output)
  | 'f' => some (.setting .format)
  | 'h' => some (.switch .help)
  | 'V' => some (.switch .version)
  | _ => none

/-- A word by its form. -/
inductive Token where
  /-- Two dashes: only plain words follow. -/
  | divider
  | option (kind : Option Kind) (value : Option String)
  | plain (text : String)
deriving DecidableEq, Repr

/-- The value behind the letter of a short option, without an equals sign in front. -/
def attached? : List Char → Option String
  | [] => none
  | '=' :: value => some (String.ofList value)
  | value => some (String.ofList value)

/-- A short switch ends the reading, so what stands behind its letter is of no account. -/
def Token.ofShort (letter : Char) (rest : List Char) : Token :=
  match shortOption? letter with
  | some (.switch switch) => .option (some (.switch switch)) none
  | kind => .option kind (attached? rest)

def Token.ofLong (text : List Char) : Token :=
  let value :=
    match text.dropWhile (· ≠ '=') with
    | [] => none
    | _ :: value => some (String.ofList value)
  .option (longOption? (String.ofList (text.takeWhile (· ≠ '=')))) value

def Token.ofText (text : String) : Token :=
  match text.toList with
  | ['-', '-'] => .divider
  | '-' :: '-' :: rest => .ofLong rest
  | ['-'] => .plain text
  | '-' :: letter :: rest => .ofShort letter rest
  | _ => .plain text

/-- The options read so far. -/
structure Draft where
  boot : Option String := none
  cartridge : Option String := none
  output : Option String := none
  format : Option ImageFormat := none
  maxSteps : Option Nat := none
  stopAt : Option UInt16 := none
  step : Bool := false
  legacyFlags : Bool := false
  header : Bool := false

/-- An option is set once only; that comes before its value is looked at. -/
def once {α : Type} (old : Option α) (new : Except UsageFault α) : Except UsageFault (Option α) :=
  if old.isSome then .error .repeatedOption else new.map some

def Draft.set (draft : Draft) (value : String) : Setting → Except UsageFault Draft
  | .output => (once draft.output (readPath value)).map fun output => { draft with output }
  | .format => (once draft.format (readFormat value)).map fun format => { draft with format }
  | .maxSteps =>
    (once draft.maxSteps (readCount value)).map fun maxSteps => { draft with maxSteps }
  | .stopAt => (once draft.stopAt (readAddress value)).map fun stopAt => { draft with stopAt }

def Draft.turnOn (draft : Draft) : Switch → Except UsageFault Draft
  | .step => if draft.step then .error .repeatedOption else .ok { draft with step := true }
  | .legacyFlags =>
    if draft.legacyFlags then .error .repeatedOption else .ok { draft with legacyFlags := true }
  | .header => if draft.header then .error .repeatedOption else .ok { draft with header := true }
  | .help => .error .helpWanted
  | .version => .error .versionWanted

/-- What has been recognised but not yet checked. -/
inductive Pending where
  | nothing
  | boot (text : String)
  | cartridge (text : String)
  | valueless (setting : Setting)
  | valued (setting : Setting) (value : String)

def Pending.settle (draft : Draft) : Pending → Except UsageFault Draft
  | .nothing => .ok draft
  | .boot text => (readPath text).map fun text => { draft with boot := some text }
  | .cartridge text => (readPath text).map fun text => { draft with cartridge := some text }
  | .valueless _ => .error .invalidValue
  | .valued setting value => draft.set value setting

/-- Where the reading has come to. -/
structure Progress where
  draft : Draft := {}
  pending : Pending := .nothing
  /-- Plain words taken so far as the boot ROM and the cartridge. -/
  plain : Nat := 0
  /-- The divider has been met. -/
  divided : Bool := false

namespace Progress

def settle (progress : Progress) : Except UsageFault Progress :=
  (progress.pending.settle progress.draft).map fun draft =>
    { progress with draft, pending := .nothing }

/-- A third word that belongs to no option is one too many. -/
def takePlain (progress : Progress) (text : String) : Except UsageFault Progress :=
  match progress.plain with
  | 0 => progress.settle.map fun p => { p with pending := .boot text, plain := 1 }
  | 1 => progress.settle.map fun p => { p with pending := .cartridge text, plain := 2 }
  | _ => .error .unknownWord

def takeOption (progress : Progress) :
    Option Kind → Option String → Except UsageFault Progress
  | none, _ => .error .unknownWord
  | some (.switch _), some _ => .error .unwantedValue
  | some (.switch switch), none => do
    let progress ← progress.settle
    let draft ← progress.draft.turnOn switch
    return { progress with draft }
  | some (.setting setting), none =>
    progress.settle.map fun p => { p with pending := .valueless setting }
  | some (.setting setting), some value => do
    let progress ← progress.settle
    let draft ← progress.draft.set value setting
    return { progress with draft }

def take (progress : Progress) (text : String) : Except UsageFault Progress :=
  if progress.divided then progress.takePlain text
  else
    match Token.ofText text, progress.pending with
    | .divider, _ => .ok { progress with divided := true }
    | .option kind value, _ => progress.takeOption kind value
    | .plain value, .valueless setting => .ok { progress with pending := .valued setting value }
    | .plain text, _ => progress.takePlain text

def finish (progress : Progress) : Except UsageFault Options := do
  let { draft, .. } ← progress.settle
  match draft.boot, draft.cartridge with
  | some boot, some cartridge =>
    return {
      boot, cartridge
      output := draft.output.getD "frames"
      format := draft.format.getD .pbm
      step := draft.step
      maxSteps := draft.maxSteps
      stopAt := draft.stopAt
      legacyFlags := draft.legacyFlags
      header := draft.header }
  | _, _ => .error .missingWord

end Progress

/-- Reads the words after the name of the program. -/
def parse (words : List String) : Except UsageFault Options :=
  words.foldlM Progress.take {} >>= Progress.finish

end DotMatrix.CommandLine
