/-!
# Grammar of a command line

A tool has commands, which can be put into groups, and groups into further groups.
Options are flags or take a value; the general options of a tool can be given to every
group and every command.  Arguments have no names on the command line, are taken in
their order, and have to be there.
-/

namespace ServingAdmin
namespace CommandLine

/-- An option, written as a word behind two hyphens or as a letter behind one. -/
structure Opt where
  name : String
  word : Option String
  letter : Option Char
  hasValue : Bool
  isRequired : Bool
  mayRepeat : Bool
  deriving DecidableEq

namespace Opt

/-- An option without a value, written as its name. -/
def flag (name : String) : Opt := ⟨name, some name, none, false, false, false⟩

/-- An option with a value, written as its name. -/
def valued (name : String) : Opt := ⟨name, some name, none, true, false, false⟩

end Opt

/-- How often an option or argument is given, and with which values. -/
structure Mention where
  name : String
  count : Nat
  values : List String
  deriving DecidableEq

/-- What is given to a group or command, in the order in which it is first mentioned. -/
structure Given where
  mentions : List Mention
  deriving DecidableEq

namespace Given

/-- Nothing is given. -/
def nothing : Given := ⟨[]⟩

/-- Changes the mention of a name. -/
def changing (name : String) (f : Mention → Mention) : List Mention → List Mention
  | [] => [f ⟨name, 0, []⟩]
  | m :: rest => if m.name = name then f m :: rest else m :: changing name f rest

/-- Mentions a name once more. -/
def mention (g : Given) (name : String) : Given :=
  ⟨changing name (fun m => { m with count := m.count + 1 }) g.mentions⟩

/-- Gives a value to a name. -/
def put (g : Given) (name value : String) : Given :=
  ⟨changing name (fun m => { m with values := m.values ++ [value] }) g.mentions⟩

/-- What is given of a name. -/
def find? (g : Given) (name : String) : Option Mention := g.mentions.find? (·.name = name)

/-- Whether a name is mentioned. -/
def has (g : Given) (name : String) : Bool := (g.find? name).isSome

/-- The first value of a name. -/
def value? (g : Given) (name : String) : Option String :=
  (g.find? name).bind fun m => m.values.head?

end Given

/-- A group of commands, or a command and what it makes of what it is given. -/
inductive Level (α : Type)
  | group (name : String) (aliases : List String) (members : List (Level α))
  | command (name : String) (aliases : List String) (options : List Opt)
      (arguments : List String) (build : Given → α)

namespace Level

variable {α : Type}

/-- The name of a group or command. -/
def name : Level α → String
  | group name _ _ => name
  | command name _ _ _ _ => name

/-- Other names of a group or command. -/
def aliases : Level α → List String
  | group _ aliases _ => aliases
  | command _ aliases _ _ _ => aliases

/-- The members of a group; a command has none. -/
def members : Level α → List (Level α)
  | group _ _ members => members
  | command _ _ _ _ _ => []

/-- The options of a command; a group has only the general ones. -/
def options : Level α → List Opt
  | group _ _ _ => []
  | command _ _ options _ _ => options

/-- The arguments of a command; a group has none. -/
def arguments : Level α → List String
  | group _ _ _ => []
  | command _ _ _ arguments _ => arguments

/-- Whether a word names a group or command. -/
def answersTo (word : String) (l : Level α) : Bool := l.name = word || l.aliases.contains word

/-- The member that a word names. -/
def member? (l : Level α) (word : String) : Option (Level α) := l.members.find? (answersTo word)

end Level

/-- A tool: the group of all of its commands, and the options that can be given everywhere. -/
structure Tool (α : Type) where
  top : Level α
  general : List Opt

end CommandLine
end ServingAdmin
