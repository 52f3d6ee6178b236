import ServingAdmin.Proofs.Autoscaling.Accepted
import ServingAdmin.Proofs.Autoscaling.UpdateLine
import ServingAdmin.Proofs.CommandLine.Hyphens

/-!
# Values that are words of their own

A value that a field accepts can be given as the word behind the option of the field, with the one
exception that the command line makes: a value with a hyphen in front, and more behind it, is taken
for options.  This shuts out the negative values, among them the burst capacity of minus one that
stands for no limit, which have to be attached to the option.
-/

namespace ServingAdmin

open CommandLine

namespace Invocation

/-- A field and its value as two words are read as an update of that field alone. -/
theorem read_separateValue
    {name raw : String}
    (hname : name ∈ AdminTool.valuedNames)
    (halone : StandsAlone raw) :
    read ["autoscaling", "update", optionWord name, raw] =
      .ok ⟨["autoscaling", "update"], 0, false, none,
        .updateSettings ⟨false, false, [(name, raw)]⟩⟩ := by
  have hvalues : ∀ e ∈ [(name, raw)], e.1 ∈ AdminTool.valuedNames := by
    simpa using hname
  have hdistinct : ([(name, raw)].map Prod.fst).Nodup := List.nodup_singleton name
  have hwords : SpelledLine (AdminTool.updateChoices false false [(name, raw)])
      [optionWord name, raw] :=
    .cons (.separate halone) .nil
  have hread := read_spelledUpdate hwords
    (fun c hc => AdminTool.isUpdateChoice_of_mem hvalues hc)
    (AdminTool.nodup_updateChoices hvalues hdistinct)
  have hupdate := AdminTool.updateOf_updateChoices false false hvalues hdistinct
  rw [hread]
  generalize AdminTool.updateOf (.ofChoices _) = u at hupdate ⊢
  obtain ⟨enable, disable, values⟩ := u
  obtain ⟨rfl, rfl, hperm⟩ := hupdate
  obtain rfl : values = [(name, raw)] := List.perm_singleton.mp hperm
  rfl

/-- A word with a hyphen in front is not the value of the field before it. -/
theorem read_hyphenatedValue
    {name raw : String}
    (hname : name ∈ AdminTool.valuedNames)
    (halone : ¬ StandsAlone raw) :
    ∃ stop, read ["autoscaling", "update", optionWord name, raw] = .error stop := by
  obtain ⟨hplain, hword, hoption⟩ := AdminTool.valued_of_mem hname
  obtain ⟨stop, hstop⟩ : ∃ stop,
      AdminTool.commandLine.readLevel ["autoscaling", "update"] AdminTool.update false (.start [])
        [optionWord name, raw] = .error stop :=
    Tool.readLevel_of_not_standsAlone hplain hword hoption rfl rfl halone
  refine ⟨stop, ?_⟩
  rw [read_update, hstop]
  rfl

end Invocation

namespace Autoscaling

/-- The check of an update of one field. -/
theorem check_single
    {name raw stored : String}
    (haccept : accept name raw = .ok stored) :
    Update.check ⟨false, false, [(name, raw)]⟩ = .ok ⟨KeyMap.empty.insert name stored⟩ := by
  simp [Update.check, Update.isEmpty, Update.acceptAll, Update.flagChanges, haccept, Except.map]

/-- An accepted value of a field gives exactly the change of this field, and can be given as the
word behind its option just if it may stand alone. -/
theorem acceptedValue_separate
    {name raw stored : String}
    (hname : name ∈ AdminTool.valuedNames)
    (haccept : accept name raw = .ok stored) :
    Update.check ⟨false, false, [(name, raw)]⟩ = .ok ⟨KeyMap.empty.insert name stored⟩ ∧
      (StandsAlone raw →
        Invocation.read ["autoscaling", "update", optionWord name, raw] =
          .ok ⟨["autoscaling", "update"], 0, false, none,
            .updateSettings ⟨false, false, [(name, raw)]⟩⟩) ∧
      (¬ StandsAlone raw →
        ∃ stop, Invocation.read ["autoscaling", "update", optionWord name, raw] = .error stop) :=
  ⟨check_single haccept, Invocation.read_separateValue hname, Invocation.read_hyphenatedValue hname⟩

/-- A class of only a hyphen is a word of its own. -/
theorem acceptedValue_separate_hyphen :
    ("pod-autoscaler-class" ∈ AdminTool.valuedNames ∧ accept "pod-autoscaler-class" "-" = .ok "-") ∧
      StandsAlone "-" ∧
      Invocation.read ["autoscaling", "update", "--pod-autoscaler-class", "-"] =
        .ok ⟨["autoscaling", "update"], 0, false, none,
          .updateSettings ⟨false, false, [("pod-autoscaler-class", "-")]⟩⟩ := by
  have hname : "pod-autoscaler-class" ∈ AdminTool.valuedNames := by
    decide
  have haccept : accept "pod-autoscaler-class" "-" = .ok "-" := rfl
  obtain ⟨_, hread, _⟩ := acceptedValue_separate hname haccept
  exact ⟨⟨hname, haccept⟩, by decide, hread (by decide)⟩

/-- The burst capacity that stands for no limit is accepted, but is not taken as a word of its
own. -/
theorem acceptedValue_noLimit_refused :
    "target-burst-capacity" ∈ AdminTool.valuedNames ∧
      accept "target-burst-capacity" "-1" = .ok "-1" ∧
      Invocation.read ["autoscaling", "update", "--target-burst-capacity", "-1"] =
        .error .unexpected :=
  ⟨by decide, eq_ok_of_toOption_eq_some (by decide +kernel), by decide +kernel⟩

end Autoscaling
end ServingAdmin
