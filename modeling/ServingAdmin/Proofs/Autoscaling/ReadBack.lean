import ServingAdmin.Proofs.Autoscaling.SettingsRead
import ServingAdmin.Proofs.Duration.Seconds

/-!
# What is written is what is read

The values of an update are stored in one form and read by another rule: switches and windows are
rewritten, decimals and the class are stored as they were given, and all are trimmed before they
are read.  For the keys listed here nothing gets lost on the way.  After an accepted update of these
keys the settings can be read again, each of them has the meaning of the last value that was given
for it, and those without a value are what they were.
-/

namespace ServingAdmin
namespace Autoscaling

/-- The keys whose values have to be decimals. -/
def decimalKeys : List String :=
  ["max-scale-up-rate", "max-scale-down-rate", "target-burst-capacity", "activator-capacity"]

/-- The keys whose settings are read with the meaning of what was given for them. -/
def faithfulKeys : List String :=
  [scaleToZeroKey, "stable-window", "pod-autoscaler-class"] ++ decimalKeys

/-- After an update the value of a setting is the meaning of the last value given for its key, and
without one the value that it keeps. -/
def Update.Gives
    {α : Type}
    (u : Update)
    (key : String)
    (Means : String → α → Prop)
    (kept after : α) :
    Prop :=
  match u.lastGiven? key with
  | some raw => Means raw after
  | none => after = kept

/-- Settings before an update of faithful keys and after it. -/
structure Settings.UpdatedBy
    (u : Update)
    (before after : Settings) :
    Prop where
  scaleToZero :
    u.Gives scaleToZeroKey (fun raw b => readBoolean raw = some b)
      (if u.enable then true else if u.disable then false else before.scaleToZero)
      after.scaleToZero
  stableWindow :
    u.Gives "stable-window" (fun raw d => readDuration raw = .ok d)
      before.stableWindow after.stableWindow
  maxScaleUpRate :
    u.Gives "max-scale-up-rate" (fun raw v => Binary64.read raw = .ok v)
      before.maxScaleUpRate after.maxScaleUpRate
  maxScaleDownRate :
    u.Gives "max-scale-down-rate" (fun raw v => Binary64.read raw = .ok v)
      before.maxScaleDownRate after.maxScaleDownRate
  burstCapacity :
    u.Gives "target-burst-capacity" (fun raw v => Binary64.read raw = .ok v)
      before.burstCapacity after.burstCapacity
  activatorCapacity :
    u.Gives "activator-capacity" (fun raw v => Binary64.read raw = .ok v)
      before.activatorCapacity after.activatorCapacity
  autoscalerClass :
    u.Gives "pod-autoscaler-class" (fun raw name => name = Text.trimmed raw)
      before.autoscalerClass after.autoscalerClass
  others :
    after =
      { before with
        scaleToZero := after.scaleToZero
        stableWindow := after.stableWindow
        maxScaleUpRate := after.maxScaleUpRate
        maxScaleDownRate := after.maxScaleDownRate
        burstCapacity := after.burstCapacity
        activatorCapacity := after.activatorCapacity
        autoscalerClass := after.autoscalerClass }

section StoredForms

/-! What is stored for a value is read with the meaning of the value. -/

theorem readBoolean_stored
    {raw stored : String}
    (h : accept scaleToZeroKey raw = .ok stored) :
    ∃ b, readBoolean raw = some b ∧ readBoolean (Text.trimmed stored) = some b := by
  obtain ⟨_, ⟨⟩, hstores⟩ := accept_eq_ok_iff.mp h
  cases hstores with
  | @boolean _ b hread =>
      refine ⟨b, hread, ?_⟩
      cases b <;> decide

/-- A window is short enough to be stored exactly. -/
theorem readDuration_stored
    {raw stored : String}
    (h : accept "stable-window" raw = .ok stored) :
    ∃ d, readDuration raw = .ok d ∧ Duration.Denotes (Text.trimmed stored) d := by
  obtain ⟨_, ⟨⟩, hstores⟩ := accept_eq_ok_iff.mp h
  cases hstores with
  | @window _ d hread hlow hhigh _ =>
      have hexact : d.StoredExactly := by
        have hlow' : (6_000_000_000 : Int) ≤ d.nanos := hlow
        have hhigh' : d.nanos ≤ (3_600_000_000_000 : Int) := hhigh
        have hcounts : Binary64.separateCounts = 8_388_608_000_000_000 := rfl
        exact Or.inl (by omega)
      refine ⟨d, readDuration_eq_ok_iff.mpr hread, ?_⟩
      rw [hexact.denotes.trimmed]
      exact hexact.denotes

theorem readDecimal_stored
    {key raw stored : String}
    (hkey : key ∈ decimalKeys)
    (h : accept key raw = .ok stored) :
    ∃ v, Binary64.read raw = .ok v ∧ Binary64.read (Text.trimmed stored) = .ok v := by
  obtain ⟨f, hf, hstores⟩ := accept_eq_ok_iff.mp h
  have hkind : f.kind = .rate ∨ f.kind = .burstCapacity ∨ f.kind = .activatorCapacity := by
    simp only [decimalKeys, List.mem_cons, List.not_mem_nil, or_false] at hkey
    rcases hkey with rfl | rfl | rfl | rfl <;> cases hf <;> decide
  obtain ⟨rfl, v, hread⟩ : stored = raw ∧ ∃ v, Binary64.read raw = .ok v := by
    rcases hkind with hkind | hkind | hkind <;> rw [hkind] at hstores
    · cases hstores with
      | rate hread _ => exact ⟨rfl, _, hread⟩
    · cases hstores with
      | burstCapacity hread _ => exact ⟨rfl, _, hread⟩
    · cases hstores with
      | activatorCapacity hread _ => exact ⟨rfl, _, hread⟩
  exact ⟨v, hread, by rw [Binary64.trimmed_of_read hread, hread]⟩

theorem class_stored
    {raw stored : String}
    (h : accept "pod-autoscaler-class" raw = .ok stored) :
    stored = raw := by
  obtain ⟨_, ⟨⟩, hstores⟩ := accept_eq_ok_iff.mp h
  cases hstores
  rfl

end StoredForms

section Updating

variable {u : Update} {changes : Changes} {data : KeyMap String} {key : String}

/-- If what is stored for a value is read with its meaning, an accepted update gives the setting. -/
theorem Update.exists_gives
    {α : Type}
    (Means Reads : String → α → Prop)
    {kept : α}
    (hcheck : u.check = .ok changes)
    (hstored : ∀ raw stored, accept key raw = .ok stored →
      ∃ a, Means raw a ∧ Reads (Text.trimmed stored) a)
    (hkept : u.lastGiven? key = none → Reads (effective (changes.applyTo data) key) kept) :
    ∃ after, Reads (effective (changes.applyTo data) key) after ∧ u.Gives key Means kept after := by
  unfold Update.Gives
  cases hlast : u.lastGiven? key with
  | none => exact ⟨kept, hkept hlast, rfl⟩
  | some raw =>
      obtain ⟨stored, haccept, hvalue⟩ := Update.get?_of_check_of_given hcheck hlast
      obtain ⟨a, hmeans, hreads⟩ := hstored raw stored haccept
      have hfound : (changes.applyTo data).get? key = some stored := by
        rw [Changes.get?_applyTo, hvalue]
        rfl
      exact ⟨a, by rwa [effective_of_some hfound], hmeans⟩

/-- What holds for a key without a value is kept. -/
theorem effective_applyTo_of_not_given
    (hcheck : u.check = .ok changes)
    (hlast : u.lastGiven? key = none)
    (hkey : key ≠ scaleToZeroKey) :
    effective (changes.applyTo data) key = effective data key := by
  refine effective_congr ?_
  rw [Changes.get?_applyTo, Update.get?_of_check_of_not_given hcheck hlast,
    Update.get?_flagChanges_of_ne hkey]
  rfl

/-- Without a value the switch is set by the flags, or kept. -/
theorem readBoolean_applyTo_of_not_given
    {before : Bool}
    (hcheck : u.check = .ok changes)
    (hlast : u.lastGiven? scaleToZeroKey = none)
    (hbefore : readBoolean (effective data scaleToZeroKey) = some before) :
    readBoolean (effective (changes.applyTo data) scaleToZeroKey) =
      some (if u.enable then true else if u.disable then false else before) := by
  have hboth := (Update.check_eq_ok_iff.mp hcheck).2.1
  have hfound := Changes.get?_applyTo changes data scaleToZeroKey
  rw [Update.get?_of_check_of_not_given hcheck hlast, Update.get?_flagChanges_scaleToZeroKey]
    at hfound
  cases henable : u.enable with
  | true =>
      have hdisable : u.disable = false := by
        simpa [henable] using hboth
      rw [effective_of_some (by simpa [henable, hdisable] using hfound)]
      rfl
  | false =>
      cases hdisable : u.disable with
      | true =>
          rw [effective_of_some (by simpa [hdisable] using hfound)]
          rfl
      | false =>
          rw [effective_congr (by simpa [henable, hdisable] using hfound)]
          exact hbefore

theorem Update.exists_gives_decimal
    {before : Binary64}
    (hcheck : u.check = .ok changes)
    (hkey : key ∈ decimalKeys)
    (hbefore : Binary64.read (effective data key) = .ok before) :
    ∃ after, Binary64.read (effective (changes.applyTo data) key) = .ok after ∧
      u.Gives key (fun raw v => Binary64.read raw = .ok v) before after := by
  refine u.exists_gives (fun raw v => Binary64.read raw = .ok v)
    (fun raw v => Binary64.read raw = .ok v) hcheck (fun _ _ => readDecimal_stored hkey)
    fun hlast => ?_
  have hne : key ≠ scaleToZeroKey := by
    rintro rfl
    exact absurd hkey (by decide)
  rwa [effective_applyTo_of_not_given hcheck hlast hne]

/-- What holds for a key that is not faithful is kept by an update of faithful keys. -/
theorem effective_applyTo_of_not_faithful
    (hcheck : u.check = .ok changes)
    (hkeys : ∀ e ∈ u.values, e.1 ∈ faithfulKeys)
    (hkey : key ∉ faithfulKeys) :
    effective (changes.applyTo data) key = effective data key := by
  have hlast : u.lastGiven? key = none := by
    refine Update.lastGiven?_eq_none fun e he hename => hkey ?_
    exact hename ▸ hkeys e he
  refine effective_applyTo_of_not_given hcheck hlast ?_
  rintro rfl
  exact hkey (by decide)

end Updating

/-- After an accepted update of faithful keys settings that could be read can be read again.  Each
setting that was given has the meaning of the last value given for it, and the others are kept. -/
theorem read_applyTo_of_check
    {data : KeyMap String}
    {before : Settings}
    {u : Update}
    {changes : Changes}
    (hread : Settings.read data = .ok before)
    (hcheck : u.check = .ok changes)
    (hkeys : ∀ e ∈ u.values, e.1 ∈ faithfulKeys) :
    ∃ after, Settings.read (changes.applyTo data) = .ok after ∧ before.UpdatedBy u after := by
  have hheld := Settings.read_eq_ok_iff.mp hread
  have hkept : ∀ key, key ∉ faithfulKeys →
      effective (changes.applyTo data) key = effective data key :=
    fun _ => effective_applyTo_of_not_faithful hcheck hkeys
  obtain ⟨scaleToZero, hswitch, hswitch'⟩ :=
    u.exists_gives (fun raw b => readBoolean raw = some b) (fun raw b => readBoolean raw = some b)
      hcheck (fun _ _ => readBoolean_stored)
      fun hlast => readBoolean_applyTo_of_not_given hcheck hlast hheld.scaleToZero
  obtain ⟨stableWindow, hwindow, hwindow'⟩ :=
    u.exists_gives (fun raw d => readDuration raw = .ok d) Duration.Denotes
      hcheck (fun _ _ => readDuration_stored) fun hlast => by
        rw [effective_applyTo_of_not_given hcheck hlast (by decide)]
        exact hheld.stableWindow
  obtain ⟨autoscalerClass, hclass, hclass'⟩ :=
    u.exists_gives (fun raw name => name = Text.trimmed raw) Eq
      hcheck (fun _ _ haccept => ⟨_, rfl, by rw [class_stored haccept]⟩)
      fun hlast =>
        (effective_applyTo_of_not_given hcheck hlast (by decide)).trans hheld.autoscalerClass
  obtain ⟨maxScaleUpRate, hup, hup'⟩ :=
    u.exists_gives_decimal hcheck (by decide) hheld.maxScaleUpRate
  obtain ⟨maxScaleDownRate, hdown, hdown'⟩ :=
    u.exists_gives_decimal hcheck (by decide) hheld.maxScaleDownRate
  obtain ⟨burstCapacity, hburst, hburst'⟩ :=
    u.exists_gives_decimal hcheck (by decide) hheld.burstCapacity
  obtain ⟨activatorCapacity, hactivator, hactivator'⟩ :=
    u.exists_gives_decimal hcheck (by decide) hheld.activatorCapacity
  refine ⟨
    { before with
      scaleToZero, stableWindow, autoscalerClass, maxScaleUpRate, maxScaleDownRate, burstCapacity,
      activatorCapacity }, Settings.read_eq_ok_iff.mpr ?_, ?_⟩
  · exact {
      scaleToZero := hswitch
      concurrencyPercentage := by
        rw [hkept _ (by decide)]
        exact hheld.concurrencyPercentage
      concurrencyTarget := by
        rw [hkept _ (by decide)]
        exact hheld.concurrencyTarget
      requestsPerSecond := by
        rw [hkept _ (by decide)]
        exact hheld.requestsPerSecond
      maxScaleUpRate := hup
      maxScaleDownRate := hdown
      burstCapacity := hburst
      panicWindowPercentage := by
        rw [hkept _ (by decide)]
        exact hheld.panicWindowPercentage
      panicThresholdPercentage := by
        rw [hkept _ (by decide)]
        exact hheld.panicThresholdPercentage
      stableWindow := hwindow
      gracePeriod := by
        rw [hkept _ (by decide)]
        exact hheld.gracePeriod
      retentionPeriod := by
        rw [hkept _ (by decide)]
        exact hheld.retentionPeriod
      activatorCapacity := hactivator
      autoscalerClass := hclass }
  · exact ⟨hswitch', hwindow', hup', hdown', hburst', hactivator', hclass', rfl⟩

/-- An update that switches scale-to-zero on and gives two windows, the shorter one last. -/
def twoWindows : Update :=
  ⟨true, false, [("stable-window", "3m"), ("max-scale-up-rate", "1e3"), ("stable-window", "2m")]⟩

/-- What is stored for an update that gives two windows is read with the meaning of the second, and
a window in the data that has blanks around it is gone. -/
theorem read_applyTo_of_check_twoWindows :
    ∃ before after changes,
      (Settings.read (KeyMap.ofList [("stable-window", " 90s ")]) = .ok before ∧
        twoWindows.check = .ok changes ∧ ∀ e ∈ twoWindows.values, e.1 ∈ faithfulKeys) ∧
      Settings.read (changes.applyTo (KeyMap.ofList [("stable-window", " 90s ")])) = .ok after ∧
      readDuration "2m" = .ok after.stableWindow ∧ after.scaleToZero = true ∧
      after.gracePeriod = before.gracePeriod := by
  have hreadable :
      (Settings.read (KeyMap.ofList [("stable-window", " 90s ")])).toOption.isSome = true := by
    decide +kernel
  have haccepted : twoWindows.check.toOption.isSome = true := by
    decide +kernel
  have hkeys : ∀ e ∈ twoWindows.values, e.1 ∈ faithfulKeys := by
    decide
  obtain ⟨before, hbefore⟩ := Option.isSome_iff_exists.mp hreadable
  obtain ⟨changes, hchanges⟩ := Option.isSome_iff_exists.mp haccepted
  have hread := eq_ok_of_toOption_eq_some hbefore
  have hcheck := eq_ok_of_toOption_eq_some hchanges
  obtain ⟨after, hread', hupdated⟩ := read_applyTo_of_check hread hcheck hkeys
  refine ⟨before, after, changes, ⟨hread, hcheck, hkeys⟩, hread', hupdated.stableWindow,
    hupdated.scaleToZero, ?_⟩
  rw [hupdated.others]

end Autoscaling
end ServingAdmin
