import ServingAdmin.Proofs.CommandLine.Spelling

/-!
# Words with hyphens in front

A word that begins with a hyphen gives options, and is not the value of the option before it.  An
option that is left without a value, or is given a second time, stays a fault whatever options are
read behind it, so that a line which ends with such a word in place of a value makes up no command
(`readLevel_of_not_standsAlone`).
-/

namespace ServingAdmin
namespace CommandLine

variable {α : Type}

namespace Given

/-- To change the mention of a name leaves those of other names. -/
theorem find?_changing_of_ne
    {f : Mention → Mention}
    (hf : ∀ m, (f m).name = m.name)
    {name other : String}
    (hne : name ≠ other)
    (mentions : List Mention) :
    (changing name f mentions).find? (·.name = other) = mentions.find? (·.name = other) := by
  induction mentions with
  | nil => simp [changing, hf, hne]
  | cons m rest ih =>
      by_cases hm : m.name = name
      · simp [changing, hm, hf, hne]
      · simp [changing, hm, List.find?_cons, ih]

/-- The mention of a name is changed where there is one. -/
theorem find?_changing_self
    {f : Mention → Mention}
    (hf : ∀ m, (f m).name = m.name)
    {name : String}
    {mentions : List Mention}
    {m : Mention}
    (hm : mentions.find? (·.name = name) = some m) :
    (changing name f mentions).find? (·.name = name) = some (f m) := by
  induction mentions with
  | nil => cases hm
  | cons n rest ih =>
      by_cases hn : n.name = name
      · have heq : n = m := by
          simpa [hn] using hm
        subst heq
        simp [changing, hn, hf]
      · have hrest : rest.find? (·.name = name) = some m := by
          simpa [hn] using hm
        simpa [changing, hn] using ih hrest

variable {g : Given} {name : String} {m : Mention}

theorem find?_mention_of_ne
    {other : String}
    (hne : name ≠ other) :
    (g.mention name).find? other = g.find? other :=
  find?_changing_of_ne (f := fun m => { m with count := m.count + 1 }) (fun _ => rfl) hne _

theorem find?_mention_self
    (hm : g.find? name = some m) :
    (g.mention name).find? name = some { m with count := m.count + 1 } :=
  find?_changing_self (f := fun m => { m with count := m.count + 1 }) (fun _ => rfl) hm

theorem find?_put_of_ne
    {other : String}
    (hne : name ≠ other)
    (value : String) :
    (g.put name value).find? other = g.find? other :=
  find?_changing_of_ne (f := fun m => { m with values := m.values ++ [value] }) (fun _ => rfl) hne _

theorem find?_put_self
    (hm : g.find? name = some m)
    (value : String) :
    (g.put name value).find? name = some { m with values := m.values ++ [value] } :=
  find?_changing_self (f := fun m => { m with values := m.values ++ [value] }) (fun _ => rfl) hm

end Given

namespace Progress

/-- An option is mentioned without a value, or more than once. -/
def Unsettled
    (p : Progress)
    (name : String) :
    Prop :=
  ∃ m, p.given.find? name = some m ∧ 0 < m.count ∧ (m.values = [] ∨ 1 < m.count)

/-- An option that is taken is mentioned once more, and may be given a value. -/
theorem given_takeOption
    (p : Progress)
    (o : Opt)
    (attached : List Char) :
    (p.takeOption o attached).given = p.given.mention o.name ∨
      ∃ value, (p.takeOption o attached).given = (p.given.mention o.name).put o.name value := by
  rw [takeOption]
  split
  · exact Or.inl rfl
  · split
    · exact Or.inl rfl
    · exact Or.inr ⟨_, rfl⟩

/-- To take an option settles nothing: another option is left as it is, and the same one is then
given once more. -/
theorem Unsettled.takeOption
    {p : Progress}
    {name : String}
    (h : p.Unsettled name)
    (o : Opt)
    (attached : List Char) :
    (p.takeOption o attached).Unsettled name := by
  obtain ⟨m, hm, hcount, hvalues⟩ := h
  by_cases ho : o.name = name
  · subst ho
    have hmention := Given.find?_mention_self hm
    have hcounts : 0 < m.count + 1 ∧ 1 < m.count + 1 := by
      omega
    rcases given_takeOption p o attached with hgiven | ⟨value, hgiven⟩
    · exact ⟨_, hgiven ▸ hmention, hcounts.1, Or.inr hcounts.2⟩
    · exact ⟨_, hgiven ▸ Given.find?_put_self hmention value, hcounts.1, Or.inr hcounts.2⟩
  · have hmention := (Given.find?_mention_of_ne (g := p.given) ho).trans hm
    rcases given_takeOption p o attached with hgiven | ⟨value, hgiven⟩
    · exact ⟨m, hgiven ▸ hmention, hcount, hvalues⟩
    · exact ⟨m, hgiven ▸ (Given.find?_put_of_ne ho value).trans hmention, hcount, hvalues⟩

theorem Unsettled.readLetters
    {options : List Opt}
    {path : List String}
    {p p' : Progress}
    {name : String}
    {letters : List Char}
    (h : p.Unsettled name)
    (hread : p.readLetters options path letters = .ok p') :
    p'.Unsettled name := by
  induction letters generalizing p with
  | nil =>
      cases hread
      exact h
  | cons c rest ih =>
      rw [Progress.readLetters] at hread
      split at hread
      · split at hread
        · cases hread
          exact h.takeOption _ _
        · exact ih (h.takeOption _ _) hread
      · split at hread
        · cases hread
        · split at hread <;> cases hread

theorem Unsettled.readWord
    {options : List Opt}
    {path : List String}
    {p p' : Progress}
    {name : String}
    {body : List Char}
    (h : p.Unsettled name)
    (hread : p.readWord options path body = .ok p') :
    p'.Unsettled name := by
  simp only [Progress.readWord] at hread
  split at hread
  · cases hread
    exact h.takeOption _ _
  · split at hread
    · cases hread
    · split at hread <;> cases hread

end Progress

theorem exists_of_not_standsAlone
    {value : String}
    (h : ¬ StandsAlone value) :
    ∃ c rest, value.toList = '-' :: c :: rest := by
  obtain ⟨hhead, hne⟩ := not_or.mp h
  match hchars : value.toList with
  | [] => simp [hchars] at hhead
  | [c] =>
      have hc : c = '-' := by
        simpa [hchars] using hhead
      have hvalue : value.toList = "-".toList := by
        rw [hchars, hc]
        rfl
      exact absurd (String.toList_inj.mp hvalue) hne
  | c :: d :: rest =>
      have hc : c = '-' := by
        simpa [hchars] using hhead
      exact ⟨d, rest, hc ▸ rfl⟩

namespace Progress

/-- A word that begins with a hyphen, and is more than that, settles nothing. -/
theorem Unsettled.read
    {options : List Opt}
    {path : List String}
    {p p' : Progress}
    {name word : String}
    (h : p.Unsettled name)
    (hword : ¬ StandsAlone word)
    (hread : p.read options path word = .ok p') :
    p'.Unsettled name := by
  obtain ⟨c, rest, hchars⟩ := exists_of_not_standsAlone hword
  rw [Progress.read, hchars] at hread
  by_cases hc : c = '-'
  · subst hc
    exact h.readWord hread
  · have hletters : p.readLetters options path (c :: rest) = .ok p' := by
      simpa [hc] using hread
    exact h.readLetters hletters

/-- What is unsettled does not pass the check, where the option takes a value and is not to be
repeated. -/
theorem Unsettled.check_ne_ok
    {options : List Opt}
    {arguments : List String}
    {p : Progress}
    {name : String}
    {o : Opt}
    (h : p.Unsettled name)
    (ho : options.find? (·.name = name) = some o)
    (hvalue : o.hasValue = true)
    (hrepeat : o.mayRepeat = false) :
    p.check options arguments ≠ .ok () := by
  obtain ⟨m, hm, hcount, hvalues⟩ := h
  have hname : m.name = name := by
    simpa using List.find?_some hm
  have hmention : checkMention options m ≠ .ok () := by
    rw [checkMention, hname, ho]
    rcases hvalues with hnone | hmany
    · simp [hvalue, hnone]
    · simp only [hvalue, hrepeat, hmany]
      split <;> simp
  intro hcheck
  rw [check] at hcheck
  split at hcheck
  · cases hcheck
  · split at hcheck
    · cases hcheck
    · exact hmention (forM_eq_ok_iff.mp hcheck m (List.mem_of_find?_eq_some hm))

end Progress

/-- A word with a hyphen in front is no value for the option before it: a line that ends with the
two makes up no command. -/
theorem Tool.readLevel_of_not_standsAlone
    {tool : Tool α}
    {path : List String}
    {command : String}
    {aliases : List String}
    {options : List Opt}
    {arguments : List String}
    {build : Given → α}
    {o : Opt}
    {name value : String}
    (hname : PlainWord name)
    (hword : (options ++ tool.general).find? (·.word = some name) = some o)
    (ho : (options ++ tool.general).find? (·.name = name) = some o)
    (hvalue : o.hasValue = true)
    (hrepeat : o.mayRepeat = false)
    (h : ¬ StandsAlone value) :
    ∃ stop,
      tool.readLevel path (.command command aliases options arguments build) false
        (.start arguments) [optionWord name, value] = .error stop := by
  have honame : o.name = name := by
    simpa using List.find?_some ho
  have hend : ∀ onlyArguments p, Progress.Unsettled p name →
      ∃ stop,
        tool.readLevel path (.command command aliases options arguments build) onlyArguments p
          [] = .error stop := by
    intro onlyArguments p hp
    rw [readLevel]
    cases hcheck : p.check (options ++ tool.general) arguments with
    | ok u => exact absurd hcheck (hp.check_ne_ok ho hvalue hrepeat)
    | error stop => exact ⟨stop, rfl⟩
  have hattached : IsAttachment "".toList := Or.inl rfl
  have hfirst := Progress.read_optionWord hname hword hattached path (.start arguments)
  have hhyphens := hname.optionWord_append_ne ""
  rw [String.append_empty] at hfirst hhyphens
  rw [readLevel_command_cons hhyphens, hfirst]
  have hunsettled : ((Progress.start arguments).takeOption o "".toList).Unsettled name := by
    refine ⟨⟨name, 1, []⟩, ?_, Nat.one_pos, Or.inl rfl⟩
    simp [Progress.takeOption, hvalue, honame, Progress.start, Given.mention, Given.nothing,
      Given.changing, Given.find?]
  by_cases hends : value = "--"
  · subst hends
    exact hend true _ hunsettled
  · change ∃ stop, tool.readLevel _ _ false _ [value] = .error stop
    rw [readLevel_command_cons hends]
    cases hread :
        ((Progress.start arguments).takeOption o "".toList).read (options ++ tool.general) path
          value with
    | error stop => exact ⟨stop, rfl⟩
    | ok p => exact hend false p (hunsettled.read h hread)

end CommandLine
end ServingAdmin
