import ServingAdmin.Proofs.Text.Octets
import ServingAdmin.Table.Sink

/-!
# Printing into a sink

It makes no difference to a sink into which pieces a text is cut: putting them one by one, up to the
first that does not fit, is putting the whole text (`putAll_eq_put`).  So a table is printed as if
its text came at once (`printTo_eq`), although its lines and the newlines behind them are put one by
one (`putLines_eq_putAll`).  A sink without a capacity takes the whole text (`printTo_unlimited`),
and one with a capacity as many of its octets as there is room for (`printTo_limited`).
-/

namespace ServingAdmin

open Text (octets)

namespace Sink

variable {s s' : Sink} {a b : List UInt8}

theorem put_nil
    (s : Sink) :
    s.put [] = (s, true) := by
  obtain ⟨capacity, taken⟩ := s
  cases capacity <;> simp [put]

/-- What comes behind a piece that fits is put behind it. -/
theorem put_append_of_fits
    (h : s.put a = (s', true)) :
    s.put (a ++ b) = s'.put b := by
  obtain ⟨capacity, taken⟩ := s
  cases capacity with
  | none =>
      obtain ⟨rfl, -⟩ := Prod.mk.inj h
      simp [put]
  | some n =>
      obtain ⟨rfl, hfits⟩ := Prod.mk.inj h
      have hroom : a.length ≤ n - taken.length := by
        simpa using hfits
      have hrest : n - (taken.length + a.length) = n - taken.length - a.length := by
        omega
      simp only [put, List.take_append, List.take_of_length_le hroom, List.length_append, hrest]
      congr 1
      · simp
      · simp only [decide_eq_decide]
        omega

/-- Behind a piece that does not fit nothing is taken. -/
theorem put_append_of_full
    (h : s.put a = (s', false)) :
    s.put (a ++ b) = (s', false) := by
  obtain ⟨capacity, taken⟩ := s
  cases capacity with
  | none => cases (Prod.mk.inj h).2
  | some n =>
      obtain ⟨rfl, hfull⟩ := Prod.mk.inj h
      have hroom : n - taken.length < a.length := by
        simpa using hfull
      simp only [put, List.take_append_of_le_length (Nat.le_of_lt hroom), List.length_append]
      congr 1
      rw [decide_eq_false_iff_not]
      omega

/-- Puts pieces one by one until one does not fit. -/
def putAll
    (s : Sink) :
    List (List UInt8) → Sink × Bool
  | [] => (s, true)
  | piece :: rest =>
      match s.put piece with
      | (s', true) => s'.putAll rest
      | (s', false) => (s', false)

/-- It does not matter into which pieces a text is cut. -/
theorem putAll_eq_put
    (s : Sink)
    (pieces : List (List UInt8)) :
    s.putAll pieces = s.put pieces.flatten := by
  induction pieces generalizing s with
  | nil => exact (put_nil s).symm
  | cons piece rest ih =>
      rw [putAll, List.flatten_cons]
      split
      · rename_i hfits
        rw [ih, put_append_of_fits hfits]
      · rename_i hfull
        rw [put_append_of_full hfull]

/-- A line and the newline behind it are two pieces. -/
theorem putLines_eq_putAll
    (s : Sink)
    (lines : List (List Char)) :
    s.putLines lines = s.putAll (lines.flatMap fun line => [octets line, octets ['\n']]) := by
  induction lines generalizing s with
  | nil => rfl
  | cons line lines ih =>
      have hline : s.put (String.ofList (line ++ ['\n'])).toUTF8.toList =
          s.putAll [octets line, octets ['\n']] := by
        rw [putAll_eq_put, Text.toList_toUTF8, String.toList_ofList, Text.octets_append]
        simp
      rw [putLines, hline, List.flatMap_cons, putAll_eq_put, putAll_eq_put, List.flatten_append]
      split
      · rename_i hfits
        rw [ih, putAll_eq_put, put_append_of_fits hfits]
      · rename_i hfull
        rw [put_append_of_full hfull]

end Sink

namespace Table

theorem flatten_pieces
    (lines : List (List Char)) :
    (lines.flatMap fun line => [octets line, octets ['\n']]).flatten =
      octets (lines.flatMap (· ++ ['\n'])) := by
  induction lines with
  | nil => rfl
  | cons line lines ih =>
      rw [List.flatMap_cons, List.flatten_append, ih, List.flatMap_cons, Text.octets_append,
        Text.octets_append]
      simp

/-- The lines of a table are put as if its text came at once. -/
theorem putLines_lines
    (t : Table)
    (s : Sink) :
    s.putLines t.lines = s.put t.text.toUTF8.toList := by
  rw [Sink.putLines_eq_putAll, Sink.putAll_eq_put, flatten_pieces, text, Text.toList_toUTF8,
    String.toList_ofList]

theorem printTo_unlimited
    (t : Table) :
    printTo (.ok t) (.ofCapacity none) = (⟨none, t.text.toUTF8.toList⟩, none) := by
  simp [printTo, putLines_lines, Sink.ofCapacity, Sink.put]

/-- A text that fits is printed whole, and of one that does not as much as there is room for. -/
theorem printTo_limited
    (t : Table)
    (n : Nat) :
    printTo (.ok t) (.ofCapacity (some n)) =
      if t.text.toUTF8.toList.length ≤ n then (⟨some n, t.text.toUTF8.toList⟩, none)
      else (⟨some n, t.text.toUTF8.toList.take n⟩, some (.of .outputFull)) := by
  simp only [printTo, putLines_lines, Sink.ofCapacity, Sink.put, List.nil_append, List.length_nil,
    Nat.sub_zero]
  by_cases hfits : t.text.toUTF8.toList.length ≤ n
  · simp only [hfits, decide_true, if_true, List.take_of_length_le hfits]
  · simp only [hfits, decide_false, if_false]

end Table
end ServingAdmin
