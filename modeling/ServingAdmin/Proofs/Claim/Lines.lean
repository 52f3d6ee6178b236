import ServingAdmin.Proofs.Claim.Name
import ServingAdmin.Proofs.CommandLine.Members
import ServingAdmin.Proofs.CommandLine.Spelling

/-!
# Command lines about claims

A claim is asked for by its name and by the option for its namespace, and is deleted by its name.
If the name may stand alone, such lines are read as the commands that make the claim of this name
for this namespace (`read_createClaim`), whatever the namespace is and however it is written, and
that delete the claim of this name (`read_deleteClaim`), whatever text it is.  Proper names and
namespaces may stand alone.
-/

namespace ServingAdmin

open CommandLine

namespace CommandLine

/-- A word that stands alone is the next argument where no option waits for a value. -/
theorem Progress.read_argument
    {word : String}
    (h : StandsAlone word)
    (options : List Opt)
    (path : List String)
    {p : Progress}
    (hp : p.waiting = none) :
    p.read options path word = p.takeArgument word := by
  rcases h with hhead | rfl
  · cases hchars : word.toList with
    | nil => simp [read, hchars, hp]
    | cons c rest =>
        have hc : c ≠ '-' := by
          simpa [hchars] using hhead
        simp [read, hchars, hp, hc]
  · simp [read, hp]

end CommandLine

namespace AdminTool

/-- The option for the namespace of a claim. -/
def claimNamespace :
    Opt :=
  { Opt.valued "namespace" with isRequired := true }

/-- The command that makes a claim. -/
def createClaim :
    Level Command :=
  .command "create" [] [claimNamespace] ["name"]
    fun g => .createClaim (textOf g "name") (textOf g "namespace")

/-- What is given to it by a name and a namespace. -/
def claimGiven
    (name ns : String) :
    Given :=
  ⟨[⟨"name", 1, [name]⟩, ⟨"namespace", 1, [ns]⟩]⟩

theorem offers_claimNamespace
    (ns : String) :
    Offers ([claimNamespace] ++ commandLine.general) ⟨"namespace", some ns⟩ where
  plain := (by decide : PlainWord "namespace")
  option := ⟨claimNamespace, rfl, rfl, rfl⟩

theorem readLevel_createClaim
    {name ns : String}
    {words : List String}
    (hname : StandsAlone name)
    (hns : Choice.Spelled ⟨"namespace", some ns⟩ words)
    (path : List String) :
    commandLine.readLevel path createClaim false (.start ["name"]) (name :: words) =
      .ok ⟨[], [claimGiven name ns], .createClaim name ns⟩ := by
  have hargument :
      (Progress.start ["name"]).read ([claimNamespace] ++ commandLine.general) path name =
        .ok ⟨⟨[⟨"name", 1, [name]⟩]⟩, none, []⟩ :=
    Progress.read_argument hname _ path rfl
  rw [createClaim, Tool.readLevel_command_cons hname.ne_hyphens, hargument,
    ← List.append_nil words]
  exact (Tool.readLevel_spelled (offers_claimNamespace ns) hns [] rfl).trans rfl

/-- The command that deletes a claim. -/
def deleteClaim :
    Level Command :=
  .command "delete" [] [] ["name"] fun g => .deleteClaim (textOf g "name")

theorem readLevel_deleteClaim
    {text : String}
    (htext : StandsAlone text)
    (path : List String) :
    commandLine.readLevel path deleteClaim false (.start ["name"]) [text] =
      .ok ⟨[], [⟨[⟨"name", 1, [text]⟩]⟩], .deleteClaim text⟩ := by
  have hargument :
      (Progress.start ["name"]).read ([] ++ commandLine.general) path text =
        .ok ⟨⟨[⟨"name", 1, [text]⟩]⟩, none, []⟩ :=
    Progress.read_argument htext _ path rfl
  rw [deleteClaim, Tool.readLevel_command_cons htext.ne_hyphens, hargument]
  rfl

end AdminTool

namespace Invocation

theorem member?_claims :
    AdminTool.commandLine.top.member? "cdc" = some (.group "cdc" [] AdminTool.claims.members) :=
  rfl

theorem member?_createClaim :
    (Level.group "cdc" [] AdminTool.claims.members).member? "create" =
      some AdminTool.createClaim :=
  rfl

theorem member?_deleteClaim :
    (Level.group "cdc" [] AdminTool.claims.members).member? "delete" =
      some AdminTool.deleteClaim :=
  rfl

/-- A name that stands alone and a namespace, however it is written, are read as what they are. -/
theorem read_createClaim
    {name ns : String}
    {words : List String}
    (hname : StandsAlone name)
    (hns : Choice.Spelled ⟨"namespace", some ns⟩ words) :
    read ("cdc" :: "create" :: name :: words) =
      .ok ⟨["cdc", "create"], 0, false, none, .createClaim name ns⟩ := by
  have hgeneral : ∀ o ∈ AdminTool.commandLine.general,
      (AdminTool.claimGiven name ns).find? o.name = none := by
    intro o ho
    have hne : "name" ≠ o.name ∧ "namespace" ≠ o.name := by
      revert o
      decide
    simp [AdminTool.claimGiven, Given.find?, hne]
  rw [read_member member?_claims member?_createClaim (by decide) (by decide)]
  exact (congrArg _ (AdminTool.readLevel_createClaim hname hns _)).trans
    (congrArg Except.ok (ofReading_behind hgeneral "cdc" "create" _))

/-- A text that stands alone is read as the name of a claim that is to be deleted. -/
theorem read_deleteClaim
    {text : String}
    (htext : StandsAlone text) :
    read ["cdc", "delete", text] =
      .ok ⟨["cdc", "delete"], 0, false, none, .deleteClaim text⟩ := by
  have hgeneral : ∀ o ∈ AdminTool.commandLine.general,
      (Given.mk [⟨"name", 1, [text]⟩]).find? o.name = none := by
    intro o ho
    have hne : "name" ≠ o.name := by
      revert o
      decide
    simp [Given.find?, hne]
  rw [read_member member?_claims member?_deleteClaim (by decide) (by decide)]
  exact (congrArg _ (AdminTool.readLevel_deleteClaim htext _)).trans
    (congrArg Except.ok (ofReading_behind hgeneral "cdc" "delete" _))

end Invocation

namespace Claim

theorem ProperName.standsAlone
    {name : String}
    (h : ProperName name) :
    StandsAlone name := by
  obtain ⟨c, rest, hname, hc⟩ := h.head
  left
  rw [hname]
  rintro ⟨⟩
  cases hc

theorem ProperNamespace.standsAlone
    {ns : String}
    (h : ProperNamespace ns) :
    StandsAlone ns :=
  Or.inl h.label.head

/-- A proper name and a proper namespace are read as the claim of the one for the other. -/
theorem read_properClaim
    {name ns : String}
    (hname : ProperName name)
    (hns : ProperNamespace ns) :
    Invocation.read ["cdc", "create", name, "--namespace", ns] =
      .ok ⟨["cdc", "create"], 0, false, none, .createClaim name ns⟩ :=
  Invocation.read_createClaim hname.standsAlone (.separate hns.standsAlone)

end Claim
end ServingAdmin
