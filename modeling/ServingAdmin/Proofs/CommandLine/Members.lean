import ServingAdmin.Invocation

/-!
# Commands behind their names

The words that are given to a command of the tool stand behind the name of its group and its own
name (`Invocation.read_member`).  Nothing is given to the levels above the command, so the general
options are those that are given to the command itself.
-/

namespace ServingAdmin

open CommandLine

namespace CommandLine

variable {α : Type}

/-- What is read behind the name of a level, with nothing given to that level, and its name. -/
def Reading.behind
    (name : String)
    (r : Reading α) :
    Reading α :=
  ⟨name :: r.path, .nothing :: r.given, r.command⟩

/-- A word that names a member of a level goes on to that member. -/
theorem Tool.readLevel_member
    {tool : Tool α}
    {l member : Level α}
    {word : String}
    (hmember : l.member? word = some member)
    (hword : word ≠ "--")
    (hnothing :
      (Progress.start l.arguments).check (l.options ++ tool.general) l.arguments = .ok ())
    (path rest : List String) :
    tool.readLevel path l false (.start l.arguments) (word :: rest) =
      (tool.readLevel (path ++ [member.name]) member false (.start member.arguments) rest).map
        (Reading.behind member.name) := by
  have hfree : (Progress.start l.arguments).waiting.isNone = true := rfl
  rw [readLevel]
  simp only [Bool.false_eq_true, if_false, hword, hfree, if_true, hmember, hnothing]
  cases tool.readLevel (path ++ [member.name]) member false (.start member.arguments) rest <;> rfl

end CommandLine

namespace Invocation

/-- The words of a command stand behind the name of its group and its own. -/
theorem read_member
    {first second : String}
    {groupName : String}
    {aliases : List String}
    {members : List (Level Command)}
    {command : Level Command}
    (hgroup : AdminTool.commandLine.top.member? first = some (.group groupName aliases members))
    (hcommand : (Level.group groupName aliases members).member? second = some command)
    (hfirst : first ≠ "--")
    (hsecond : second ≠ "--")
    (words : List String) :
    read (first :: second :: words) =
      (AdminTool.commandLine.readLevel [groupName, command.name] command false
        (.start command.arguments) words).map fun r =>
          ofReading ((r.behind command.name).behind groupName) := by
  have hbelow :
      AdminTool.commandLine.readLevel [groupName] (.group groupName aliases members) false
          (.start []) (second :: words) =
        (AdminTool.commandLine.readLevel [groupName, command.name] command false
          (.start command.arguments) words).map (Reading.behind command.name) :=
    Tool.readLevel_member hcommand hsecond rfl [groupName] words
  have hread :
      AdminTool.commandLine.read (first :: second :: words) =
        (AdminTool.commandLine.readLevel [groupName] (.group groupName aliases members) false
          (.start []) (second :: words)).map (Reading.behind groupName) :=
    Tool.readLevel_member hgroup hfirst rfl [] (second :: words)
  rw [read, hread, hbelow]
  cases AdminTool.commandLine.readLevel [groupName, command.name] command false
    (.start command.arguments) words <;> rfl

/-- A command that is given no general option is invoked without any. -/
theorem ofReading_behind
    {given : Given}
    (hgiven : ∀ o ∈ AdminTool.commandLine.general, given.find? o.name = none)
    (first second : String)
    (command : Command) :
    ofReading (((Reading.mk [] [given] command).behind second).behind first) =
      ⟨[first, second], 0, false, none, command⟩ := by
  have hnothing : ∀ name, Given.nothing.find? name = none := fun _ => rfl
  have hnone : ∀ o ∈ AdminTool.commandLine.general,
      (((Reading.mk [] [given] command).behind second).behind first).general? o.name = none := by
    intro o ho
    simp [Reading.behind, Reading.general?, hgiven o ho, hnothing]
  simp only [ofReading, hnone _ (by decide : AdminTool.verbose ∈ _),
    hnone _ (by decide : AdminTool.debug ∈ _), hnone _ (by decide : AdminTool.kubeConfig ∈ _)]
  rfl

end Invocation
end ServingAdmin
