import ServingAdmin.CommandLine.Grammar

/-!
# Reading a command line

The words of a command line are read from left to right, each in the light of the level
that has been reached and of an option that may be waiting for its value:

* a word that names a member of the group goes on to that member;
* a word that begins with a hyphen, and is not only that hyphen, gives options.  A value
  can be attached, behind an equals sign or, for a letter, also without; otherwise the
  next word is the value if it does not begin with a hyphen;
* any other word is an argument, as is every word behind a word of two hyphens.

Every level can be asked for help.  The version can be asked for at the top and from the
second level below it on; the members of the top, which only group others, have none.

What is given to a level is checked after the levels below it.
-/

namespace ServingAdmin
namespace CommandLine

/-- Why the words of a command line make up no command. -/
inductive Stop
  /-- Help is asked for. -/
  | help
  /-- The version of the level at the end of a path is asked for. -/
  | version (path : List String)
  /-- A group is named but none of its members. -/
  | memberMissing
  /-- A required option or argument is missing. -/
  | requiredMissing
  /-- An option has no value. -/
  | valueMissing
  /-- An option is repeated. -/
  | repeated
  /-- A word has no meaning. -/
  | unexpected
  deriving DecidableEq

/-- What it comes to when the level at the end of a path is asked for its version. -/
def Stop.ofVersion (path : List String) : Stop :=
  if path.length = 1 then .unexpected else .version path

/-- What has been read at a level: what is given, the option that waits for a value, and the
arguments that are still to come. -/
structure Progress where
  given : Given
  waiting : Option String
  arguments : List String
  deriving DecidableEq

namespace Progress

/-- Nothing has been read. -/
def start (arguments : List String) : Progress := ⟨.nothing, none, arguments⟩

/-- Takes an argument. -/
def takeArgument (p : Progress) (word : String) : Except Stop Progress :=
  match p.arguments with
  | [] => .error .unexpected
  | name :: rest => .ok { p with given := (p.given.put name word).mention name, arguments := rest }

/-- Mentions an option, with what is attached to it.  Equals signs in front of the value do not
belong to it. -/
def takeOption (p : Progress) (o : Opt) (attached : List Char) : Progress :=
  let given := p.given.mention o.name
  if !o.hasValue then { p with given := given, waiting := none }
  else if attached.isEmpty then { p with given := given, waiting := some o.name }
  else
    { p with
      given := given.put o.name (String.ofList (attached.dropWhile (· = '='))), waiting := none }

/-- Reads what stands behind one hyphen: letters of flags, up to the first letter of an option with
a value. -/
def readLetters (options : List Opt) (path : List String) (p : Progress) :
    List Char → Except Stop Progress
  | [] => .ok p
  | c :: rest =>
      match options.find? (·.letter = some c) with
      | some o =>
          if o.hasValue then .ok (p.takeOption o rest)
          else readLetters options path (p.takeOption o []) rest
      | none =>
          if c = 'h' then .error .help
          else if c = 'V' then .error (.ofVersion path)
          else .error .unexpected

/-- Reads what stands behind two hyphens or more. -/
def readWord (options : List Opt) (path : List String) (p : Progress) (body : List Char) :
    Except Stop Progress :=
  let name := String.ofList (body.takeWhile (· ≠ '='))
  match options.find? (·.word = some name) with
  | some o => .ok (p.takeOption o (body.dropWhile (· ≠ '=')))
  | none =>
      if name = "help" then .error .help
      else if name = "version" then .error (.ofVersion path)
      else .error .unexpected

/-- Reads a word that names no member of the level at the end of a path. -/
def read (options : List Opt) (path : List String) (p : Progress) (word : String) :
    Except Stop Progress :=
  match word.toList with
  | '-' :: '-' :: rest => readWord options path p (rest.dropWhile (· = '-'))
  | '-' :: c :: rest => readLetters options path p (c :: rest)
  | _ =>
      match p.waiting with
      | some name => .ok { p with given := p.given.put name word, waiting := none }
      | none => p.takeArgument word

/-- Whether something required is missing. -/
def lacksRequired (options : List Opt) (arguments : List String) (p : Progress) : Bool :=
  ((options.filter Opt.isRequired).map Opt.name ++ arguments).any fun name => !p.given.has name

/-- Whether an option is still waiting for its first value. -/
def lacksValue (p : Progress) : Bool :=
  match p.waiting with
  | some name => (p.given.value? name).isNone
  | none => false

/-- Checks how an option is mentioned. -/
def checkMention (options : List Opt) (m : Mention) : Except Stop Unit :=
  match options.find? (·.name = m.name) with
  | none => .ok ()
  | some o =>
      if o.hasValue && m.values.isEmpty then .error .valueMissing
      else if 1 < m.count && !o.mayRepeat then .error .repeated
      else .ok ()

/-- Checks what is given to a level. -/
def check (options : List Opt) (arguments : List String) (p : Progress) : Except Stop Unit := do
  if p.lacksRequired options arguments then .error .requiredMissing
  else if p.lacksValue then .error .valueMissing
  else p.given.mentions.forM (checkMention options)

end Progress

/-- A command that was read: the names of the levels that lead to it, what is given to each level
from the top on, and what the command makes of it. -/
structure Reading (α : Type) where
  path : List String
  given : List Given
  command : α

/-- What is given of a general option: of several levels the lowest counts. -/
def Reading.general? {α : Type} (r : Reading α) (name : String) : Option Mention :=
  r.given.reverse.findSome? (·.find? name)

/-- The word that asks for help with a member of a group. -/
def helpWord : String := "help"

/-- Why a command line with a word for help is no command: the words behind it have to lead to
a member, or be the same word once more. -/
def helpAbout {α : Type} (l : Level α) (words : List String) : Stop :=
  if words = [helpWord] then .help else walk l words
where
  /-- Follows words down to a member. -/
  walk (l : Level α) : List String → Stop
    | [] => .help
    | word :: rest =>
        match l.member? word with
        | some member => walk member rest
        | none => .unexpected

namespace Tool

variable {α : Type}

/-- Reads the words behind the name of the level at the end of a path. -/
def readLevel (tool : Tool α) (path : List String) (l : Level α) (onlyArguments : Bool)
    (p : Progress) : List String → Except Stop (Reading α)
  | [] =>
      match l with
      | .group _ _ _ => .error .memberMissing
      | .command _ _ options arguments build => do
          p.check (options ++ tool.general) arguments
          .ok ⟨[], [p.given], build p.given⟩
  | word :: rest =>
      if onlyArguments then do
        readLevel tool path l true (← p.takeArgument word) rest
      else if word = "--" then readLevel tool path l true p rest
      else
        match if p.waiting.isNone then l.member? word else none with
        | some member => do
            let below ←
              readLevel tool (path ++ [member.name]) member false (.start member.arguments) rest
            p.check (l.options ++ tool.general) l.arguments
            .ok ⟨member.name :: below.path, p.given :: below.given, below.command⟩
        | none =>
            if p.waiting.isNone && word = helpWord && !l.members.isEmpty then
              .error (helpAbout l rest)
            else do
              readLevel tool path l false (← p.read (l.options ++ tool.general) path word) rest

/-- Reads a command line. -/
def read (tool : Tool α) (words : List String) : Except Stop (Reading α) :=
  tool.readLevel [] tool.top false (.start tool.top.arguments) words

end Tool

end CommandLine
end ServingAdmin
