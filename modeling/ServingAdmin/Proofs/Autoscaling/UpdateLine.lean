import Mathlib.Data.List.Perm.Basic
import ServingAdmin.Proofs.CommandLine.Members
import ServingAdmin.Proofs.CommandLine.Spelling

/-!
# Command lines of updates

What an update asks for does not depend on the order of its options on the command line, nor on
whether a value is attached to the word of its option or is a word of its own.
-/

namespace ServingAdmin

open CommandLine

namespace AdminTool

/-- The names of the options with values of an update. -/
def valuedNames :
    List String :=
  valuedFields.map Autoscaling.Field.name

/-- The options of an update. -/
def updateOptions :
    List Opt :=
  [scaleToZero, noScaleToZero] ++ valuedFields.map fun f => .valued f.name

/-- The command that updates the settings. -/
def update :
    Level Command :=
  .command "update" [] updateOptions [] fun g => .updateSettings (updateOf g)

/-- The choices of an update: flags, and options with values. -/
def updateChoices
    (enable disable : Bool)
    (values : List (String × String)) :
    List Choice :=
  (if enable then [⟨scaleToZero.name, none⟩] else []) ++
    (if disable then [⟨noScaleToZero.name, none⟩] else []) ++
      values.map fun e => ⟨e.1, some e.2⟩

theorem nodup_valuedNames :
    valuedNames.Nodup := by
  decide

theorem not_mem_valuedNames_of_flag :
    ∀ o ∈ [scaleToZero, noScaleToZero], o.name ∉ valuedNames := by
  decide

/-- The flags of an update can be told from its other options and from the general ones. -/
theorem offers_flag
    {o : Opt}
    (ho : o ∈ [scaleToZero, noScaleToZero]) :
    Offers (updateOptions ++ commandLine.general) ⟨o.name, none⟩ := by
  have hflags : ∀ o ∈ [scaleToZero, noScaleToZero], PlainWord o.name ∧
      (updateOptions ++ commandLine.general).find? (·.word = some o.name) = some o ∧
      (updateOptions ++ commandLine.general).find? (·.name = o.name) = some o ∧
      o.hasValue = false := by
    decide
  obtain ⟨hplain, hword, hname, hvalue⟩ := hflags o ho
  exact ⟨hplain, o, hword, hname, hvalue⟩

/-- So can its options with values. -/
theorem valued_of_mem
    {name : String}
    (hmem : name ∈ valuedNames) :
    PlainWord name ∧
      (updateOptions ++ commandLine.general).find? (·.word = some name) = some (.valued name) ∧
      (updateOptions ++ commandLine.general).find? (·.name = name) = some (.valued name) := by
  have hvalued : ∀ name ∈ valuedNames, PlainWord name ∧
      (updateOptions ++ commandLine.general).find? (·.word = some name) = some (.valued name) ∧
      (updateOptions ++ commandLine.general).find? (·.name = name) = some (.valued name) := by
    decide
  exact hvalued name hmem

theorem offers_valued
    {name : String}
    (hmem : name ∈ valuedNames)
    (value : String) :
    Offers (updateOptions ++ commandLine.general) ⟨name, some value⟩ := by
  obtain ⟨hplain, hword, hname⟩ := valued_of_mem hmem
  exact ⟨hplain, .valued name, hword, hname, rfl⟩

theorem isRequired_updateOptions :
    ∀ o ∈ updateOptions ++ commandLine.general, o.isRequired = false := by
  decide

/-- A choice that an update offers: a flag, or an option with a value. -/
inductive IsUpdateChoice : Choice → Prop
  | flag
      {o : Opt}
      (ho : o ∈ [scaleToZero, noScaleToZero]) :
      IsUpdateChoice ⟨o.name, none⟩
  | valued
      {name : String}
      (hname : name ∈ valuedNames)
      (value : String) :
      IsUpdateChoice ⟨name, some value⟩

theorem IsUpdateChoice.offers
    {c : Choice}
    (h : IsUpdateChoice c) :
    Offers (updateOptions ++ commandLine.general) c := by
  cases h with
  | flag ho => exact offers_flag ho
  | valued hname value => exact offers_valued hname value

/-- No choice of an update is one of a general option. -/
theorem IsUpdateChoice.name_ne
    {c : Choice}
    (h : IsUpdateChoice c)
    {o : Opt}
    (ho : o ∈ commandLine.general) :
    c.name ≠ o.name := by
  have hflags : ∀ f ∈ [scaleToZero, noScaleToZero], ∀ o ∈ commandLine.general,
      f.name ≠ o.name := by
    decide
  have hvalued : ∀ name ∈ valuedNames, ∀ o ∈ commandLine.general, name ≠ o.name := by
    decide
  cases h with
  | flag hf => exact hflags _ hf o ho
  | valued hname value => exact hvalued _ hname o ho

end AdminTool

namespace Invocation

/-- The words of an update stand behind the two that name the command. -/
theorem read_update
    (words : List String) :
    read ("autoscaling" :: "update" :: words) =
      (AdminTool.commandLine.readLevel ["autoscaling", "update"] AdminTool.update false (.start [])
        words).map fun r => ofReading ((r.behind "update").behind "autoscaling") := by
  have hgroup :
      AdminTool.commandLine.top.member? "autoscaling" =
        some (.group "autoscaling" [] AdminTool.autoscaling.members) := rfl
  have hcommand :
      (Level.group "autoscaling" [] AdminTool.autoscaling.members).member? "update" =
        some AdminTool.update := rfl
  exact read_member hgroup hcommand (by decide) (by decide) words

/-- However the choices of an update are written, they are read as an update and nothing else. -/
theorem read_spelledUpdate
    {choices : List Choice}
    {words : List String}
    (hwords : SpelledLine choices words)
    (hchoices : ∀ c ∈ choices, AdminTool.IsUpdateChoice c)
    (hdistinct : (choices.map Choice.name).Nodup) :
    read ("autoscaling" :: "update" :: words) =
      .ok ⟨["autoscaling", "update"], 0, false, none,
        .updateSettings (AdminTool.updateOf (.ofChoices choices))⟩ := by
  have hlevel :
      AdminTool.commandLine.readLevel ["autoscaling", "update"] AdminTool.update false (.start [])
          words =
        .ok ⟨[], [.ofChoices choices],
          .updateSettings (AdminTool.updateOf (.ofChoices choices))⟩ :=
    Tool.readLevel_of_spelledLine hwords (fun c hc => (hchoices c hc).offers) hdistinct
      AdminTool.isRequired_updateOptions
  have hgeneral : ∀ o ∈ AdminTool.commandLine.general,
      (Given.ofChoices choices).find? o.name = none := by
    intro o ho
    rw [Given.find?_ofChoices, Option.map_eq_none_iff, List.find?_eq_none]
    intro c hc
    simpa using (hchoices c hc).name_ne ho
  rw [read_update, hlevel]
  exact congrArg Except.ok (ofReading_behind hgeneral "autoscaling" "update" _)

end Invocation

namespace AdminTool

section Updates

variable {enable disable : Bool} {values : List (String × String)}

theorem mem_updateChoices_iff
    {c : Choice} :
    c ∈ updateChoices enable disable values ↔
      (enable = true ∧ c = ⟨scaleToZero.name, none⟩) ∨
        (disable = true ∧ c = ⟨noScaleToZero.name, none⟩) ∨
        ∃ e ∈ values, c = ⟨e.1, some e.2⟩ := by
  cases enable <;> cases disable <;> simp [updateChoices, eq_comm]

theorem isUpdateChoice_of_mem
    (hvalues : ∀ e ∈ values, e.1 ∈ valuedNames)
    {c : Choice}
    (hc : c ∈ updateChoices enable disable values) :
    IsUpdateChoice c := by
  rcases mem_updateChoices_iff.mp hc with ⟨_, rfl⟩ | ⟨_, rfl⟩ | ⟨e, he, rfl⟩
  · exact .flag (by decide)
  · exact .flag (by decide)
  · exact .valued (hvalues e he) e.2

theorem nodup_updateChoices
    (hvalues : ∀ e ∈ values, e.1 ∈ valuedNames)
    (hdistinct : (values.map Prod.fst).Nodup) :
    ((updateChoices enable disable values).map Choice.name).Nodup := by
  have hflags : ∀ o ∈ [scaleToZero, noScaleToZero], o.name ∉ values.map Prod.fst := by
    intro o ho hmem
    obtain ⟨e, he, hname⟩ := List.mem_map.mp hmem
    exact not_mem_valuedNames_of_flag o ho (hname ▸ hvalues e he)
  have hon := hflags scaleToZero (by decide)
  have hoff := hflags noScaleToZero (by decide)
  have hne : scaleToZero.name ≠ noScaleToZero.name := by
    decide
  have hnames : (values.map fun e => Choice.mk e.1 (some e.2)).map Choice.name =
      values.map Prod.fst := by
    simp
  rw [updateChoices, List.map_append, hnames]
  cases enable <;> cases disable <;> simp_all

/-- Values that are found for some of a list of keys are listed in the order of the keys. -/
theorem sublist_map_filterMap
    {β γ : Type}
    (key : β → String)
    (value? : β → Option γ)
    (l : List β) :
    ((l.filterMap fun b => (value? b).map (key b, ·)).map Prod.fst).Sublist (l.map key) := by
  induction l with
  | nil => exact List.Sublist.refl _
  | cons b rest ih =>
      cases hb : value? b with
      | none => simpa [hb] using ih.cons (key b)
      | some v => simpa [hb] using ih.cons_cons (key b)

/-- The values of an update are asked for in the order of the fields. -/
theorem sublist_updateOf
    (g : Given) :
    ((updateOf g).values.map Prod.fst).Sublist valuedNames :=
  sublist_map_filterMap Autoscaling.Field.name (fun f => g.value? f.name) valuedFields

theorem mem_values_updateOf_iff
    (g : Given)
    (name value : String) :
    (name, value) ∈ (updateOf g).values ↔ name ∈ valuedNames ∧ g.value? name = some value := by
  simp only [updateOf, List.mem_filterMap, Option.map_eq_some_iff, Prod.mk.injEq, valuedNames,
    List.mem_map]
  constructor
  · rintro ⟨f, hf, v, hv, rfl, rfl⟩
    exact ⟨⟨f, hf, rfl⟩, hv⟩
  · rintro ⟨⟨f, hf, rfl⟩, hv⟩
    exact ⟨f, hf, value, hv, rfl, rfl⟩

/-- A flag is given exactly if it is one of those that are asked for. -/
theorem has_flag_iff
    (enable disable : Bool)
    (hvalues : ∀ e ∈ values, e.1 ∈ valuedNames)
    {o : Opt}
    (ho : o ∈ [scaleToZero, noScaleToZero]) :
    (Given.ofChoices (updateChoices enable disable values)).has o.name = true ↔
      (enable = true ∧ scaleToZero.name = o.name) ∨
        (disable = true ∧ noScaleToZero.name = o.name) := by
  rw [Given.has_ofChoices_iff]
  constructor
  · rintro ⟨c, hc, hname⟩
    rcases mem_updateChoices_iff.mp hc with ⟨henable, rfl⟩ | ⟨hdisable, rfl⟩ | ⟨e, he, rfl⟩
    · exact Or.inl ⟨henable, hname⟩
    · exact Or.inr ⟨hdisable, hname⟩
    · exact absurd (hname ▸ hvalues e he) (not_mem_valuedNames_of_flag o ho)
  · rintro (⟨henable, hname⟩ | ⟨hdisable, hname⟩)
    · exact ⟨_, mem_updateChoices_iff.mpr (Or.inl ⟨henable, rfl⟩), hname⟩
    · exact ⟨_, mem_updateChoices_iff.mpr (Or.inr (Or.inl ⟨hdisable, rfl⟩)), hname⟩

/-- The update of choices has the flags and the values that the choices are made of. -/
theorem updateOf_updateChoices
    (enable disable : Bool)
    (hvalues : ∀ e ∈ values, e.1 ∈ valuedNames)
    (hdistinct : (values.map Prod.fst).Nodup) :
    (updateOf (.ofChoices (updateChoices enable disable values))).enable = enable ∧
      (updateOf (.ofChoices (updateChoices enable disable values))).disable = disable ∧
      (updateOf (.ofChoices (updateChoices enable disable values))).values.Perm values := by
  have hne : noScaleToZero.name ≠ scaleToZero.name := by
    decide
  refine ⟨?_, ?_, ?_⟩
  · have hon := has_flag_iff enable disable hvalues (by decide : scaleToZero ∈ _)
    simpa [updateOf, hne] using hon
  · have hoff := has_flag_iff enable disable hvalues (by decide : noScaleToZero ∈ _)
    simpa [updateOf, hne.symm] using hoff
  · have hsorted := sublist_updateOf (.ofChoices (updateChoices enable disable values))
    refine (List.perm_ext_iff_of_nodup (.of_map _ (hsorted.nodup nodup_valuedNames))
      (.of_map _ hdistinct)).mpr ?_
    rintro ⟨name, value⟩
    rw [mem_values_updateOf_iff,
      Given.value?_ofChoices_eq_some_iff (nodup_updateChoices hvalues hdistinct),
      mem_updateChoices_iff]
    constructor
    · rintro ⟨_, ⟨_, h⟩ | ⟨_, h⟩ | ⟨e, he, h⟩⟩
      · cases h
      · cases h
      · cases h
        exact he
    · intro he
      exact ⟨hvalues _ he, Or.inr (Or.inr ⟨_, he, rfl⟩)⟩

/-- The order of choices does not matter. -/
theorem updateOf_congr
    {choices choices' : List Choice}
    (hperm : choices.Perm choices')
    (hdistinct : (choices.map Choice.name).Nodup) :
    updateOf (.ofChoices choices) = updateOf (.ofChoices choices') := by
  have hhas : ∀ name, (Given.ofChoices choices).has name = (Given.ofChoices choices').has name := by
    intro name
    rw [Bool.eq_iff_iff, Given.has_ofChoices_iff, Given.has_ofChoices_iff]
    simp [hperm.mem_iff]
  have hvalue : ∀ name,
      (Given.ofChoices choices).value? name = (Given.ofChoices choices').value? name := by
    intro name
    refine Option.ext fun value => ?_
    rw [Given.value?_ofChoices_eq_some_iff hdistinct,
      Given.value?_ofChoices_eq_some_iff ((hperm.map _).nodup_iff.mp hdistinct), hperm.mem_iff]
  simp only [updateOf, hhas, hvalue]

end Updates
end AdminTool

namespace Autoscaling

/-- For any flags, and any values of different fields, there is one update that every line is read
as in which they are written, in whatever order and in whatever spelling: it has these flags, and
these values in the order of the fields.  What its check comes to, and the fault that it finds
first, is therefore one for all these lines. -/
theorem update_spellingIndependent
    (enable disable : Bool)
    {values : List (String × String)}
    (hvalues : ∀ e ∈ values, e.1 ∈ AdminTool.valuedNames)
    (hdistinct : (values.map Prod.fst).Nodup) :
    ∃ u : Update,
      (u.enable = enable ∧ u.disable = disable ∧ u.values.Perm values ∧
        (u.values.map Prod.fst).Sublist AdminTool.valuedNames) ∧
      ∀ choices words, choices.Perm (AdminTool.updateChoices enable disable values) →
        SpelledLine choices words →
        Invocation.read ("autoscaling" :: "update" :: words) =
          .ok ⟨["autoscaling", "update"], 0, false, none, .updateSettings u⟩ := by
  obtain ⟨henable, hdisable, hperm⟩ :=
    AdminTool.updateOf_updateChoices enable disable hvalues hdistinct
  refine ⟨_, ⟨henable, hdisable, hperm, AdminTool.sublist_updateOf _⟩, ?_⟩
  intro choices words hchoices hwords
  have hnames := (hchoices.map Choice.name).nodup_iff.mpr
    (AdminTool.nodup_updateChoices hvalues hdistinct)
  rw [← AdminTool.updateOf_congr hchoices hnames]
  exact Invocation.read_spelledUpdate hwords
    (fun c hc => AdminTool.isUpdateChoice_of_mem hvalues (hchoices.mem_iff.mp hc)) hnames

/-- Two values and a flag, in two orders: a value that looks like a flag has to be attached, one
that begins with an equals sign has to be a word of its own. -/
theorem update_spellingIndependent_twoLines :
    ∃ u : Update,
      u.enable = false ∧ u.disable = true ∧
        u.values.Perm [("pod-autoscaler-class", "--scale-to-zero"), ("stable-window", "=2m")] ∧
        Invocation.read ["autoscaling", "update", "--no-scale-to-zero",
            "--pod-autoscaler-class=--scale-to-zero", "--stable-window", "=2m"] =
          .ok ⟨["autoscaling", "update"], 0, false, none, .updateSettings u⟩ ∧
        Invocation.read ["autoscaling", "update", "--stable-window", "=2m",
            "--pod-autoscaler-class=--scale-to-zero", "--no-scale-to-zero"] =
          .ok ⟨["autoscaling", "update"], 0, false, none, .updateSettings u⟩ := by
  have hvalues : ∀ e ∈ [("pod-autoscaler-class", "--scale-to-zero"), ("stable-window", "=2m")],
      e.1 ∈ AdminTool.valuedNames := by
    decide
  obtain ⟨u, ⟨henable, hdisable, hperm, _⟩, hread⟩ :=
    update_spellingIndependent false true hvalues (by decide)
  refine ⟨u, henable, hdisable, hperm, hread _ _ (List.Perm.refl _) ?_, hread _ _
    (List.reverse_perm _) ?_⟩
  · exact .cons (.flag _) (.cons (.attached (by decide)) (.cons (.separate (by decide)) .nil))
  · exact .cons (.separate (by decide)) (.cons (.attached (by decide)) (.cons (.flag _) .nil))

end Autoscaling
end ServingAdmin
