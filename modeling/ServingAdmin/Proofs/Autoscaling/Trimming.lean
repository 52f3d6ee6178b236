import ServingAdmin.Autoscaling.Settings
import ServingAdmin.Proofs.Binary64.Grammar
import ServingAdmin.Proofs.Text.Blank

/-!
# Values and the blanks around them

A stored value is trimmed before it is read, so blanks around it make no difference
(`Text.trim_padded`).  A value that is given is not trimmed.  This makes no difference to durations
and decimals: their readers take no text with a blank in it.
-/

namespace ServingAdmin

namespace Duration

open Text

theorem TimeUnit.unblank_of_mem_names
    {unit : TimeUnit}
    {name : List Char}
    (h : name ∈ unit.names) :
    Unblank name := by
  have hall : ∀ unit : TimeUnit, ∀ name ∈ unit.names, Unblank name := by
    intro unit
    cases unit <;> decide
  exact hall unit name h

theorem Number.unblank
    {number whole fraction : List Char}
    (h : Number number whole fraction) :
    Unblank number := by
  cases h with
  | plain hdigits _ => exact unblank_of_isDigit hdigits
  | pointed hwhole hfraction _ =>
      rw [unblank_append, unblank_cons]
      exact ⟨unblank_of_isDigit hwhole, by decide, unblank_of_isDigit hfraction⟩

theorem Spell.unblank
    {cs : List Component}
    {s : List Char}
    (h : Spell cs s) :
    Unblank s := by
  induction h with
  | nil => exact unblank_nil
  | cons hc _ ih =>
      obtain ⟨hnumber, hname⟩ := hc
      simp only [unblank_append]
      exact ⟨⟨hnumber.unblank, TimeUnit.unblank_of_mem_names hname⟩, ih⟩

/-- A sign is not blank. -/
theorem Signed.unblank
    {raw s : List Char}
    {negative : Bool}
    (h : Signed raw negative s)
    (hs : Unblank s) :
    Unblank raw := by
  cases h with
  | minus => exact unblank_cons.mpr ⟨by decide, hs⟩
  | plus => exact unblank_cons.mpr ⟨by decide, hs⟩
  | bare => exact hs

/-- A text that is written for a duration is not changed by trimming it. -/
theorem Denotes.trimmed
    {raw : String}
    {d : Duration}
    (h : Denotes raw d) :
    Text.trimmed raw = raw := by
  obtain ⟨_, s, n, hsigned, hmagnitude, _, _⟩ := h
  refine trimmed_eq_self (hsigned.unblank ?_)
  cases hmagnitude with
  | zero => decide
  | components hspell _ => exact hspell.unblank

end Duration

namespace Binary64

open Text

/-- Small letters are blank where the letters that they are made from are. -/
theorem unblank_of_map_toLower
    {s : List Char}
    (h : Unblank (s.map Char.toLower)) :
    Unblank s := by
  intro c hc
  have hlower := h _ (List.mem_map_of_mem hc)
  unfold Char.toLower at hlower
  split at hlower
  · rename_i hcapital
    simp [isBlank, UInt32.le_iff_toNat_le] at hcapital ⊢
    omega
  · exact hlower

theorem Literal.Exponent.unblank
    {s : List Char}
    {e : Int}
    (h : Literal.Exponent s e) :
    Unblank s := by
  cases h with
  | none => exact unblank_nil
  | some hmark hsigned hdigits _ =>
      have hunblank := hsigned.unblank (unblank_of_isDigit hdigits)
      rcases hmark with rfl | rfl
      · exact unblank_cons.mpr ⟨by decide, hunblank⟩
      · exact unblank_cons.mpr ⟨by decide, hunblank⟩

theorem Literal.WrittenAs.unblank
    {l : Literal}
    {raw : String}
    (h : l.WrittenAs raw) :
    Unblank raw.toList := by
  obtain ⟨negative, s, hsigned, hunsigned⟩ := h
  refine hsigned.unblank ?_
  cases hunsigned with
  | nan hnan => exact unblank_of_map_toLower (hnan ▸ by decide)
  | infinite hinfinite =>
      rcases hinfinite with hinf | hinfinity
      · exact unblank_of_map_toLower (hinf ▸ by decide)
      · exact unblank_of_map_toLower (hinfinity ▸ by decide)
  | decimal hnumber hexponent => exact unblank_append.mpr ⟨hnumber.unblank, hexponent.unblank⟩

/-- A text that writes a number is not changed by trimming it. -/
theorem trimmed_of_read
    {raw : String}
    {v : Binary64}
    (h : read raw = .ok v) :
    Text.trimmed raw = raw := by
  obtain ⟨l, hwritten, _⟩ := read_eq_ok_iff.mp h
  exact trimmed_eq_self hwritten.unblank

end Binary64
end ServingAdmin
