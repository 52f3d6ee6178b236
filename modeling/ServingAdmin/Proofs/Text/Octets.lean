/-!
# Octets of texts

A text is stored and sent as octets.  A character has one to four of them, by its code
(`Encodes`): within ASCII it is a single octet, and beyond ASCII all of its octets are beyond
ASCII too.  The more octets a character has the greater is the first of them, so texts are in the
order of their octets exactly if they are in the order of their characters (`utf8_lt_iff`).
-/

namespace ServingAdmin
namespace Text

/-- The octets of characters. -/
def octets
    (l : List Char) :
    List UInt8 :=
  l.flatMap String.utf8EncodeChar

@[simp] theorem octets_nil :
    octets [] = [] := by
  rfl

@[simp] theorem octets_cons
    (c : Char)
    (l : List Char) :
    octets (c :: l) = String.utf8EncodeChar c ++ octets l := by
  rfl

@[simp] theorem octets_append
    (l m : List Char) :
    octets (l ++ m) = octets l ++ octets m := by
  simp [octets]

/-! ### The octets of a stored text -/

/-- Of octets that are listed up to some place those behind it are still to come. -/
theorem toList_loop
    (before after listed : List UInt8) :
    ByteArray.toList.loop ⟨(before ++ after).toArray⟩ before.length listed =
      listed.reverse ++ after := by
  induction after generalizing before listed with
  | nil =>
      rw [ByteArray.toList.loop, if_neg (by simp [ByteArray.size]), List.append_nil]
  | cons b after ih =>
      have hnext := ih (before ++ [b]) (b :: listed)
      rw [ByteArray.toList.loop, if_pos (by simp [ByteArray.size])]
      simpa [ByteArray.get!] using hnext

/-- A text is stored as the octets of its characters. -/
theorem toList_toUTF8
    (s : String) :
    s.toUTF8.toList = octets s.toList := by
  have hdata : s.toUTF8.data.toList = octets s.toList := by
    rw [String.toUTF8_eq_toByteArray, ← String.utf8Encode_toList]
    exact List.toList_data_toByteArray
  rw [← hdata]
  exact toList_loop [] s.toUTF8.data.toList []

/-! ### The octets of a character -/

/-- The octets of a code: its digits in base 64, marked by how many there are. -/
inductive Encodes : Nat → List UInt8 → Prop
  | one
      {a : Nat}
      (ha : a < 0x80) :
      Encodes a [.ofNat a]
  | two
      {a b : Nat}
      (ha : a < 0x20)
      (hb : b < 0x40)
      (hmin : 2 ≤ a) :
      Encodes (a * 0x40 + b) [.ofNat (a + 0xC0), .ofNat (b + 0x80)]
  | three
      {a b c : Nat}
      (ha : a < 0x10)
      (hb : b < 0x40)
      (hc : c < 0x40)
      (hmin : 0x20 ≤ a * 0x40 + b) :
      Encodes ((a * 0x40 + b) * 0x40 + c)
        [.ofNat (a + 0xE0), .ofNat (b + 0x80), .ofNat (c + 0x80)]
  | four
      {a b c d : Nat}
      (ha : a < 8)
      (hb : b < 0x40)
      (hc : c < 0x40)
      (hd : d < 0x40)
      (hmin : 0x10 ≤ a * 0x40 + b) :
      Encodes (((a * 0x40 + b) * 0x40 + c) * 0x40 + d)
        [.ofNat (a + 0xF0), .ofNat (b + 0x80), .ofNat (c + 0x80), .ofNat (d + 0x80)]

theorem toNat_lt_of_isValidChar
    {v : UInt32}
    (h : v.isValidChar) :
    v.toNat < 0x110000 := by
  rcases h with hlow | ⟨_, hhigh⟩
  · have hlow' : v.toNat < 0xD800 := hlow
    omega
  · exact hhigh

/-- A character has the octets of its code. -/
theorem encodes
    (c : Char) :
    Encodes c.toNat (String.utf8EncodeChar c) := by
  obtain ⟨v, hv⟩ := c
  have hvalid := toNat_lt_of_isValidChar hv
  simp only [String.utf8EncodeChar, Char.toNat]
  generalize v.toNat = n at hvalid ⊢
  split
  · exact .one (by omega)
  · split
    · have hdigits : n / 64 % 32 * 0x40 + n % 64 = n := by
        omega
      have htwo := Encodes.two (a := n / 64 % 32) (b := n % 64)
        (by omega) (by omega) (by omega)
      rwa [hdigits] at htwo
    · split
      · have hdigits : (n / 4096 % 16 * 0x40 + n / 64 % 64) * 0x40 + n % 64 = n := by
          omega
        have hthree := Encodes.three (a := n / 4096 % 16) (b := n / 64 % 64) (c := n % 64)
          (by omega) (by omega) (by omega) (by omega)
        rwa [hdigits] at hthree
      · have hdigits :
            ((n / 262144 % 8 * 0x40 + n / 4096 % 64) * 0x40 + n / 64 % 64) * 0x40 + n % 64 = n := by
          omega
        have hfour := Encodes.four
          (a := n / 262144 % 8) (b := n / 4096 % 64) (c := n / 64 % 64) (d := n % 64)
          (by omega) (by omega) (by omega) (by omega) (by omega)
        rwa [hdigits] at hfour

/-- A character within ASCII is a single octet. -/
theorem utf8EncodeChar_of_ascii
    {c : Char}
    (h : c.toNat < 0x80) :
    String.utf8EncodeChar c = [.ofNat c.toNat] := by
  have hc := encodes c
  generalize c.toNat = n at h hc ⊢
  generalize String.utf8EncodeChar c = l at hc ⊢
  cases hc with
  | one _ => rfl
  | two _ _ _ => omega
  | three _ _ _ _ => omega
  | four _ _ _ _ _ => omega

/-- The octets of a character beyond ASCII are beyond ASCII. -/
theorem le_of_mem_utf8EncodeChar
    {c : Char}
    (h : 0x80 ≤ c.toNat)
    {b : UInt8}
    (hb : b ∈ String.utf8EncodeChar c) :
    0x80 ≤ b.toNat := by
  have hc := encodes c
  generalize c.toNat = n at h hc
  generalize String.utf8EncodeChar c = l at hb hc
  cases hc with
  | one _ => omega
  | two _ _ _ =>
      simp only [List.mem_cons, List.not_mem_nil, or_false] at hb
      rcases hb with rfl | rfl <;> rw [UInt8.toNat_ofNat'] <;> omega
  | three _ _ _ _ =>
      simp only [List.mem_cons, List.not_mem_nil, or_false] at hb
      rcases hb with rfl | rfl | rfl <;> rw [UInt8.toNat_ofNat'] <;> omega
  | four _ _ _ _ _ =>
      simp only [List.mem_cons, List.not_mem_nil, or_false] at hb
      rcases hb with rfl | rfl | rfl | rfl <;> rw [UInt8.toNat_ofNat'] <;> omega

/-! ### The order -/

/-- The octets of a smaller code come first, whatever follows. -/
theorem Encodes.append_lt_append
    {m n : Nat}
    {l k : List UInt8}
    (hl : Encodes m l)
    (hk : Encodes n k)
    (h : m < n)
    (s t : List UInt8) :
    l ++ s < k ++ t := by
  cases hl <;> cases hk
  all_goals
    simp only [List.cons_append, List.nil_append, List.cons_lt_cons_iff, UInt8.lt_iff_toNat_lt,
      ← UInt8.toNat_inj, UInt8.toNat_ofNat']
    omega

theorem append_lt_append_iff
    (p s t : List UInt8) :
    p ++ s < p ++ t ↔ s < t := by
  induction p with
  | nil => rfl
  | cons b p ih => simp [ih]

/-- Octets are in the order of the characters they stand for. -/
theorem octets_lt_iff
    (l m : List Char) :
    octets l < octets m ↔ l < m := by
  induction l generalizing m with
  | nil =>
      cases m with
      | nil => simp
      | cons d m =>
          have hne : octets (d :: m) ≠ [] := by
            simp
          obtain ⟨b, rest, hoctets⟩ := List.exists_cons_of_ne_nil hne
          simp [hoctets]
  | cons c l ih =>
      cases m with
      | nil => simp
      | cons d m =>
          rw [octets_cons, octets_cons, List.cons_lt_cons_iff]
          rcases Nat.lt_trichotomy c.toNat d.toNat with hlt | heq | hgt
          · have hfirst := (encodes c).append_lt_append (encodes d) hlt (octets l) (octets m)
            exact iff_of_true hfirst (Or.inl hlt)
          · obtain rfl := Char.toNat_inj.mp heq
            rw [append_lt_append_iff, ih]
            simp
          · have hfirst := (encodes d).append_lt_append (encodes c) hgt (octets m) (octets l)
            refine iff_of_false (List.lt_asymm hfirst) ?_
            rintro (hlt | ⟨rfl, _⟩)
            · exact Nat.lt_asymm hlt hgt
            · exact Nat.lt_irrefl _ hgt

/-- Texts are in the order of their octets. -/
theorem utf8_lt_iff
    (s t : String) :
    s.toUTF8.toList < t.toUTF8.toList ↔ s < t := by
  rw [toList_toUTF8, toList_toUTF8, octets_lt_iff]
  exact Iff.rfl

theorem utf8_le_iff
    (s t : String) :
    s.toUTF8.toList ≤ t.toUTF8.toList ↔ s ≤ t :=
  not_congr (utf8_lt_iff t s)

end Text
end ServingAdmin
