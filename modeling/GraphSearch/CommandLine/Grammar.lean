/-!
# Reading a command line

A command line is a list of words. A word that begins with two dashes names an option. An option is
a switch, or it takes a value: what stands in the same word after an equals sign, or else the next
word, which must then look like an operand. A word that begins with one dash is a group of switches
of one letter each. The word `--` ends the options. All other words are operands, among them a
single dash, and so is every word after the end of the options.

Words are read from left to right into settings, and each may be refused in view of those before it.
The reading stops at the first word that is refused or that asks for the version, whatever follows.
-/

namespace GraphSearch.CommandLine

/-- What a word is, taken by itself. -/
inductive Word where
  /-- It ends the options. -/
  | endOfOptions
  /-- It names an option and may bring a value along. -/
  | option (name : String) (value : Option String)
  /-- It is a group of switches. -/
  | switches (letters : List Char)
  /-- It is an operand. -/
  | operand (text : String)
deriving DecidableEq, Repr

/-- Tells what a word is. -/
def Word.ofString (word : String) : Word :=
  match word.toList with
  | ['-', '-'] => .endOfOptions
  | '-' :: '-' :: text =>
    let name := String.ofList (text.takeWhile (· != '='))
    match text.dropWhile (· != '=') with
    | [] => .option name none
    | _ :: value => .option name (some (String.ofList value))
  | '-' :: c :: letters => .switches (c :: letters)
  | _ => .operand word

/-- What an option does to the settings that have been read before it. Where there is no result, the
option is refused. -/
inductive Effect (σ : Type) where
  /-- It is a switch. -/
  | switch (set : σ → Option σ)
  /-- It takes a value. -/
  | value (set : String → σ → Option σ)
  /-- It asks for the version. -/
  | version

/-- The options and operands of a program. -/
structure Grammar (σ : Type) where
  /-- The options by name. -/
  option : String → Option (Effect σ)
  /-- The switches that have a letter. -/
  letter : Char → Option (Effect σ)
  /-- What an operand does to the settings. -/
  operand : String → σ → Option σ

/-- Why a reading stopped. -/
inductive Stop where
  /-- The version was asked for. -/
  | version
  /-- A word was refused. -/
  | misuse
deriving DecidableEq, Repr

namespace Grammar

variable {σ : Type}

/-- The settings if they were accepted. -/
def accept : Option σ → Except Stop σ
  | some s => .ok s
  | none => .error .misuse

/-- Reads a group of switches. -/
def readSwitch (g : Grammar σ) (s : σ) (c : Char) : Except Stop σ :=
  match g.letter c with
  | some (.switch set) => accept (set s)
  | some .version => .error .version
  | _ => .error .misuse

/-- Reads a command line, starting from the given settings. -/
def read (g : Grammar σ) (s : σ) : List String → Except Stop σ
  | [] => .ok s
  | word :: words =>
    match Word.ofString word with
    | .endOfOptions => words.foldlM (fun s text ↦ accept (g.operand text s)) s
    | .operand text => do g.read (← accept (g.operand text s)) words
    | .switches letters => do g.read (← letters.foldlM g.readSwitch s) words
    | .option name given =>
      match g.option name, given with
      | some (.switch set), none => do g.read (← accept (set s)) words
      | some .version, none => .error .version
      | some (.value set), some text => do g.read (← accept (set text s)) words
      | some (.value set), none =>
        match words with
        | [] => .error .misuse
        | next :: words =>
          match Word.ofString next with
          | .operand text => do g.read (← accept (set text s)) words
          | _ => .error .misuse
      | _, _ => .error .misuse

end Grammar

end GraphSearch.CommandLine
