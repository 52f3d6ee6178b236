import ServingAdmin.Proofs.Json.StringsRead

/-!
# Values are read by themselves

What a reader makes of a value is settled by the value alone: by neither the blanks before it nor
the text behind it, if the value ends there (`Reader.Local`).  Members are read one after the other,
each by the reader that its name leads to (`membersFrom_iff`), and the items of an array that stands
for a record as the fields of the record, in their order (`fieldsFrom_iff`).
-/

namespace ServingAdmin
namespace Json

open Octet

variable {α β σ : Type} {r : Reader α} {v blanks rest rest' : List UInt8} {a : α}

/-! ### Local readers -/

/-- A reader reads a value, and no more than the value, wherever it stands. -/
def Takes
    (r : Reader α)
    (v : List UInt8)
    (a : α) :
    Prop :=
  ∀ blanks rest, Blanks blanks → Delimited rest → r.run (blanks ++ (v ++ rest)) = .ok (a, rest)

/-- What a reader makes of a value, wherever it stands, is what a property says. -/
structure Settled
    (r : Reader α)
    (v : List UInt8)
    (reading : α → Prop) :
    Prop where
  run_iff : ∀ {blanks rest rest' a}, Blanks blanks → Delimited rest →
    (r.run (blanks ++ (v ++ rest)) = .ok (a, rest') ↔ rest' = rest ∧ reading a)

/-- What a reader makes of a value does not depend on where it stands. -/
def Reader.Local
    (r : Reader α) :
    Prop :=
  ∀ v, IsValue v → Settled r v (Takes r v)

theorem blanks_nil :
    Blanks [] := by
  decide

theorem settled_of_takes
    (h : ∀ {blanks rest rest' a}, Blanks blanks → Delimited rest →
      r.run (blanks ++ (v ++ rest)) = .ok (a, rest') → Takes r v a) :
    Settled r v (Takes r v) := by
  refine ⟨fun {blanks rest rest' a} hblanks hrest => ⟨fun hrun => ?_, ?_⟩⟩
  · have htakes := h hblanks hrest hrun
    rw [htakes blanks rest hblanks hrest] at hrun
    obtain ⟨-, rfl⟩ := Prod.mk.inj (Except.ok.inj hrun)
    exact ⟨rfl, htakes⟩
  · rintro ⟨rfl, htakes⟩
    exact htakes _ _ hblanks hrest

theorem Settled.takes_iff
    {reading : α → Prop}
    (h : Settled r v reading) :
    Takes r v a ↔ reading a := by
  constructor
  · intro htakes
    exact ((h.run_iff blanks_nil delimited_nil).mp (htakes _ _ blanks_nil delimited_nil)).2
  · intro ha blanks rest hblanks hrest
    exact (h.run_iff hblanks hrest).mpr ⟨rfl, ha⟩

theorem Settled.settled_takes
    {reading : α → Prop}
    (h : Settled r v reading) :
    Settled r v (Takes r v) :=
  settled_of_takes fun hblanks hrest hrun => h.takes_iff.mpr ((h.run_iff hblanks hrest).mp hrun).2

theorem Takes.unique
    {b : α}
    (h : Takes r v a)
    (h' : Takes r v b) :
    a = b := by
  have hrun := h [] [] blanks_nil delimited_nil
  rw [h' [] [] blanks_nil delimited_nil] at hrun
  exact (Prod.mk.inj (Except.ok.inj hrun)).1.symm

/-- A whole text is a value between blanks. -/
theorem Reader.Local.readWhole_iff
    (h : r.Local)
    (hv : IsValue v)
    (hblanks : Blanks blanks)
    (hrest : Blanks rest) :
    r.readWhole (blanks ++ (v ++ rest)) = .ok a ↔ Takes r v a := by
  have hdelimited : Delimited rest := by
    have happend := delimited_nil.append hrest
    rwa [List.append_nil] at happend
  have hend : skipBlanks rest = [] := by
    have hskip := skipBlanks_append hrest []
    rwa [List.append_nil] at hskip
  rw [Reader.readWhole]
  constructor
  · intro hread
    split at hread
    · cases hread
    · rename_i a' rest' hrun
      split at hread
      · obtain rfl := Except.ok.inj hread
        exact (((h v hv).run_iff hblanks hdelimited).mp hrun).2
      · cases hread
  · intro htakes
    rw [htakes _ _ hblanks hdelimited]
    exact if_pos hend

theorem Reader.Local.readWhole_of_takes
    (h : r.Local)
    (hv : IsValue v)
    (htakes : Takes r v a) :
    r.readWhole v = .ok a := by
  have hread := (h.readWhole_iff hv blanks_nil blanks_nil).mpr htakes
  rwa [List.nil_append, List.append_nil] at hread

/-! ### Strings, and values that are passed over -/

theorem run_text
    {b : UInt8}
    (hblanks : Blanks blanks)
    (hb : isBlank b = false)
    (rest : List UInt8) :
    Reader.text.run (blanks ++ b :: rest) =
      if b = quote then readText rest else .error (wrongShape b rest) := by
  simp only [Reader.text, Reader.fromOctet, skipBlanks_append_cons hblanks hb]

theorem local_text :
    Reader.text.Local := by
  intro v hv
  have hfault : ∀ {b : UInt8} {t : List UInt8}, v = b :: t → isBlank b = false → b ≠ quote →
      Settled Reader.text v (Takes Reader.text v) := by
    rintro b t rfl hblank hquote
    refine settled_of_takes fun hblanks hrest hrun => ?_
    rw [List.cons_append, run_text hblanks hblank, if_neg hquote] at hrun
    cases hrun
  cases hv with
  | array => exact hfault rfl (by decide) (by decide)
  | object => exact hfault rfl (by decide) (by decide)
  | scalar hs =>
      obtain ⟨b, t, rfl, hblank, -, -, -, hstring⟩ := hs.head
      by_cases hquote : b = quote
      · obtain ⟨s, hspelling, rfl⟩ := hstring hquote
        have hrun : ∀ {blanks : List UInt8}, Blanks blanks → ∀ rest,
            Reader.text.run (blanks ++ (b :: (s ++ [quote]) ++ rest)) =
              readText (s ++ quote :: rest) := by
          intro blanks hblanks rest
          rw [List.cons_append, run_text hblanks hblank, if_pos hquote, List.append_assoc]
          rfl
        refine settled_of_takes fun hblanks hrest hread blanks rest hblanks' hrest' => ?_
        rw [hrun hblanks] at hread
        rw [hrun hblanks', readText_spelling hspelling hread]
      · exact hfault rfl hblank hquote

theorem takes_skipping
    (hv : IsValue v)
    (a : α) :
    Takes (Reader.skipping a) v a := by
  intro blanks rest hblanks hrest
  simp only [Reader.skipping, skipValue_append hv hblanks hrest]

theorem local_skipping
    (a : α) :
    (Reader.skipping a).Local := by
  intro v hv
  refine settled_of_takes fun hblanks hrest hrun => ?_
  rw [takes_skipping hv a _ _ hblanks hrest] at hrun
  obtain ⟨rfl, -⟩ := Prod.mk.inj (Except.ok.inj hrun)
  exact takes_skipping hv a

theorem run_map_eq_ok
    {f : α → β}
    {s : List UInt8}
    {b : β} :
    (r.map f).run s = .ok (b, rest) ↔ ∃ a, r.run s = .ok (a, rest) ∧ f a = b := by
  simp only [Reader.map, Reader.check]
  constructor
  · intro h
    split at h
    · cases h
    · rename_i hrun
      obtain ⟨rfl, rfl⟩ := Prod.mk.inj (Except.ok.inj h)
      exact ⟨_, hrun, rfl⟩
  · rintro ⟨a, hrun, rfl⟩
    rw [hrun]

theorem Takes.map
    (h : Takes r v a)
    (f : α → β) :
    Takes (r.map f) v (f a) :=
  fun blanks rest hblanks hrest => run_map_eq_ok.mpr ⟨a, h blanks rest hblanks hrest, rfl⟩

theorem settled_map
    (hlocal : r.Local)
    (hv : IsValue v)
    (f : α → β) :
    Settled (r.map f) v fun b => ∃ a, Takes r v a ∧ f a = b := by
  refine ⟨fun hblanks hrest => ?_⟩
  simp only [run_map_eq_ok, (hlocal v hv).run_iff hblanks hrest, and_assoc, exists_and_left]

theorem Reader.Local.map
    (h : r.Local)
    (f : α → β) :
    (r.map f).Local :=
  fun _ hv => (settled_map h hv f).settled_takes

/-! ### Members -/

/-- The name of a member is read. -/
def Member.Named
    (m : Member)
    (name : String) :
    Prop :=
  readText (m.name ++ [quote]) = .ok (name, [])

theorem Member.Named.unique
    {m : Member}
    {name name' : String}
    (h : m.Named name)
    (h' : m.Named name') :
    name = name' :=
  (Prod.mk.inj (Except.ok.inj (h.symm.trans h'))).1

/-- The name of a member is read wherever the member stands. -/
theorem readText_name
    {m : Member}
    {name : String}
    (h : IsSpelling m.name) :
    readText (m.name ++ quote :: rest) = .ok (name, rest') ↔ rest' = rest ∧ m.Named name := by
  constructor
  · intro hread
    have hrest := readText_spelling h hread rest
    rw [hread] at hrest
    exact ⟨(Prod.mk.inj (Except.ok.inj hrest)).2, readText_spelling h hread []⟩
  · rintro ⟨rfl, hname⟩
    exact readText_spelling h hname rest'

/-- A member changes what was read before it. -/
def TakesMember
    (onName : σ → String → Except Fault (Reader σ))
    (st : σ)
    (m : Member)
    (st' : σ) :
    Prop :=
  ∃ name r, m.Named name ∧ onName st name = .ok r ∧ Takes r m.item.value st'

/-- The members of an object change what was read before them, one after the other. -/
inductive TakesMembers
    (onName : σ → String → Except Fault (Reader σ)) :
    σ → List Member → σ → Prop
  | nil
      {st : σ} :
      TakesMembers onName st [] st
  | cons
      {st st' st'' : σ}
      {m : Member}
      {members : List Member}
      (hmember : TakesMember onName st m st')
      (hmembers : TakesMembers onName st' members st'') :
      TakesMembers onName st (m :: members) st''

variable {onName : σ → String → Except Fault (Reader σ)} {st st' : σ}
  {m : Member} {members before after : List Member}

@[simp]
theorem takesMembers_nil :
    TakesMembers onName st [] st' ↔ st' = st := by
  constructor
  · rintro ⟨⟩
    rfl
  · rintro rfl
    exact .nil

theorem takesMembers_cons :
    TakesMembers onName st (m :: members) st' ↔
      ∃ st₁, TakesMember onName st m st₁ ∧ TakesMembers onName st₁ members st' := by
  constructor
  · rintro (_ | ⟨hmember, hmembers⟩)
    exact ⟨_, hmember, hmembers⟩
  · rintro ⟨_, hmember, hmembers⟩
    exact .cons hmember hmembers

theorem takesMembers_append :
    TakesMembers onName st (before ++ after) st' ↔
      ∃ st₁, TakesMembers onName st before st₁ ∧ TakesMembers onName st₁ after st' := by
  induction before generalizing st with
  | nil => simp
  | cons m before ih =>
      simp only [List.cons_append, takesMembers_cons, ih]
      constructor
      · rintro ⟨st₁, hm, st₂, hbefore, hafter⟩
        exact ⟨st₂, ⟨st₁, hm, hbefore⟩, hafter⟩
      · rintro ⟨st₂, ⟨st₁, hm, hbefore⟩, hafter⟩
        exact ⟨st₁, hm, st₂, hbefore, hafter⟩

theorem skipColon_member
    (h : m.Framed)
    (rest : List UInt8) :
    skipColon (m.beforeColon ++ colon :: rest) = .ok rest := by
  rw [skipColon, skipBlanks_append_cons h.beforeColon (by decide)]
  rfl

theorem readMember_iff
    (hlocal : ∀ st name r, onName st name = .ok r → r.Local)
    (hm : m.WellFormed)
    (hrest : Delimited rest)
    {first : Bool}
    {s : List UInt8}
    (hstart : Reader.itemStart first s = .ok (m.named ++ rest)) :
    Reader.readMember onName first st s = .ok (st', rest') ↔
      rest' = m.item.behind ++ rest ∧ TakesMember onName st m st' := by
  obtain ⟨hframed, hvalue⟩ := hm
  have hname : ∀ name s,
      readText (m.name ++ quote :: (m.beforeColon ++ colon :: (m.item.text ++ rest))) =
          .ok (name, s) ↔
        s = m.beforeColon ++ colon :: (m.item.text ++ rest) ∧ m.Named name :=
    fun name s => readText_name hframed.name
  have hnamed : m.named ++ rest =
      quote :: (m.name ++ quote :: (m.beforeColon ++ colon :: (m.item.text ++ rest))) := by
    simp [Member.named]
  have hitem : m.item.text ++ rest =
      m.item.before ++ (m.item.value ++ (m.item.behind ++ rest)) := by
    simp [Item.text]
  have hbehind := hrest.append hframed.item.behind
  rw [hnamed] at hstart
  simp only [Reader.readMember, hstart, Reader.readName, if_true]
  constructor
  · intro h
    split at h
    · cases h
    · rename_i name s hread
      obtain ⟨rfl, hnamed⟩ := (hname name s).mp hread
      split at h
      · cases h
      · rename_i r hr
        simp only [skipColon_member hframed, hitem] at h
        obtain ⟨rfl, htakes⟩ :=
          ((hlocal _ _ _ hr _ hvalue).run_iff hframed.item.before hbehind).mp h
        exact ⟨rfl, name, r, hnamed, hr, htakes⟩
  · rintro ⟨rfl, name, r, hnamed, hr, htakes⟩
    simp only [(hname name _).mpr ⟨rfl, hnamed⟩, hr, skipColon_member hframed]
    rw [hitem, htakes _ _ hframed.item.before hbehind]

theorem membersFrom_eq
    (first : Bool)
    (s : List UInt8) :
    Reader.membersFrom onName first st s =
      match skipBlanks s with
      | [] => .error .truncated
      | b :: rest =>
          if b = closeObject then .ok (st, rest)
          else
            match Reader.readMember onName first st (b :: rest) with
            | .error fault => .error fault
            | .ok (st', rest') => Reader.membersFrom onName false st' rest' := by
  rw [Reader.membersFrom]
  split
  · rename_i heq
    rw [heq]
  · rename_i heq
    rw [heq]
    dsimp only
    split
    · rfl
    · split
      · rename_i hmember
        rw [hmember]
      · rename_i hmember
        rw [hmember]

/-- Before a member stand blanks, and a comma if it is not the first. -/
theorem itemStart_member
    (h : m.Framed)
    (hblanks : Blanks blanks)
    (first : Bool)
    (rest : List UInt8) :
    ∃ b s, skipBlanks (blanks ++ ((if first then [] else [comma]) ++ (m.text ++ rest))) = b :: s ∧
      b ≠ closeObject ∧ Reader.itemStart first (b :: s) = .ok (m.named ++ rest) := by
  have hskip := skipBlanks_member h rest
  cases first with
  | true =>
      rw [if_pos rfl, List.nil_append, skipBlanks_append hblanks, hskip]
      exact ⟨_, _, rfl, by decide, rfl⟩
  | false =>
      rw [if_neg Bool.false_ne_true, List.singleton_append,
        skipBlanks_append_cons hblanks (by decide)]
      exact ⟨_, _, rfl, by decide, congrArg Except.ok hskip⟩

/-- Members are read up to the end of their object. -/
theorem membersFrom_iff
    (hlocal : ∀ st name r, onName st name = .ok r → r.Local)
    (hmembers : ∀ m ∈ members, m.WellFormed)
    (hblanks : Blanks blanks)
    (first : Bool)
    (rest : List UInt8) :
    Reader.membersFrom onName first st
        (blanks ++ (joined first (members.map Member.text) ++ closeObject :: rest)) =
          .ok (st', rest') ↔
      rest' = rest ∧ TakesMembers onName st members st' := by
  induction members generalizing first st blanks with
  | nil =>
      have hclose : skipBlanks (blanks ++ (joined first [] ++ closeObject :: rest)) =
          closeObject :: rest := skipBlanks_append_cons hblanks (by decide) rest
      rw [membersFrom_eq, List.map_nil, hclose, takesMembers_nil]
      simp only [if_true, Except.ok.injEq, Prod.mk.injEq]
      rw [and_comm, eq_comm, eq_comm (a := st)]
  | cons m members ih =>
      obtain ⟨hm, hothers⟩ := List.forall_mem_cons.mp hmembers
      have hbehind : Delimited (joined false (members.map Member.text) ++ closeObject :: rest) :=
        delimited_joined (delimited_closeObject rest)
      obtain ⟨b, s, hskip, hclose, hstart⟩ := itemStart_member hm.framed hblanks first
        (joined false (members.map Member.text) ++ closeObject :: rest)
      rw [List.map_cons, joined, List.append_assoc, List.append_assoc, membersFrom_eq, hskip]
      dsimp only
      rw [if_neg hclose, takesMembers_cons]
      constructor
      · intro h
        split at h
        · cases h
        · rename_i st₁ s₁ hmember
          obtain ⟨rfl, htakes⟩ := (readMember_iff hlocal hm hbehind hstart).mp hmember
          obtain ⟨rfl, hmembers⟩ := (ih hothers hm.framed.item.behind false).mp h
          exact ⟨rfl, st₁, htakes, hmembers⟩
      · rintro ⟨rfl, st₁, htakes, hmembers⟩
        rw [(readMember_iff hlocal hm hbehind hstart).mpr ⟨rfl, htakes⟩]
        exact (ih hothers hm.framed.item.behind false).mpr ⟨rfl, hmembers⟩

/-! ### Arrays of fields -/

/-- The items of an array are read as the first fields of a record. -/
inductive TakesFields : List (Reader.Field σ) → σ → List Item → σ → Prop
  | nil
      {fields : List (Reader.Field σ)}
      {st : σ} :
      TakesFields fields st [] st
  | cons
      {f : Reader.Field σ}
      {fields : List (Reader.Field σ)}
      {st st' st'' : σ}
      {i : Item}
      {items : List Item}
      (hitem : Takes (f.read st) i.value st')
      (hitems : TakesFields fields st' items st'') :
      TakesFields (f :: fields) st (i :: items) st''

variable {fields : List (Reader.Field σ)} {f : Reader.Field σ} {i : Item} {items : List Item}

@[simp]
theorem takesFields_nil :
    TakesFields fields st [] st' ↔ st' = st := by
  constructor
  · rintro ⟨⟩
    rfl
  · rintro rfl
    exact .nil

/-- There are no more items than fields. -/
theorem not_takesFields_of_no_field :
    ¬ TakesFields [] st (i :: items) st' := by
  rintro ⟨⟩

theorem takesFields_cons :
    TakesFields (f :: fields) st (i :: items) st' ↔
      ∃ st₁, Takes (f.read st) i.value st₁ ∧ TakesFields fields st₁ items st' := by
  constructor
  · rintro (_ | ⟨hitem, hitems⟩)
    exact ⟨_, hitem, hitems⟩
  · rintro ⟨_, hitem, hitems⟩
    exact .cons hitem hitems

/-- Before an item stand blanks, and a comma if it is not the first. -/
theorem itemStart_item
    (h : i.WellFormed)
    (hblanks : Blanks blanks)
    (first : Bool)
    (rest : List UInt8) :
    ∃ b s, skipBlanks (blanks ++ ((if first then [] else [comma]) ++ (i.text ++ rest))) = b :: s ∧
      b ≠ closeArray ∧
      Reader.itemStart first (b :: s) = .ok (i.value ++ (i.behind ++ rest)) := by
  obtain ⟨b, t, hv, hblank, hclose⟩ := h.value.head
  have hskip : skipBlanks (i.text ++ rest) = b :: t ++ (i.behind ++ rest) := by
    rw [Item.text, hv, List.append_assoc, List.append_assoc]
    exact skipBlanks_append_cons h.framed.before hblank _
  rw [hv]
  cases first with
  | true =>
      rw [if_pos rfl, List.nil_append, skipBlanks_append hblanks, hskip]
      exact ⟨_, _, rfl, hclose, rfl⟩
  | false =>
      rw [if_neg Bool.false_ne_true, List.singleton_append,
        skipBlanks_append_cons hblanks (by decide)]
      exact ⟨_, _, rfl, by decide, congrArg Except.ok hskip⟩

/-- Fields may be missing at the end of the array. -/
theorem fieldsFrom_of_closed
    {first : Bool}
    {s : List UInt8}
    (h : skipBlanks s = closeArray :: rest) :
    Reader.fieldsFrom first fields st s = .ok (st, rest) := by
  cases fields with
  | nil =>
      rw [Reader.fieldsFrom, h]
      exact if_pos rfl
  | cons f fields =>
      rw [Reader.fieldsFrom, h]
      exact if_pos rfl

/-- The fields are read from items up to the end of their array. -/
theorem fieldsFrom_iff
    (hlocal : ∀ f ∈ fields, ∀ st, (f.read st).Local)
    (hitems : ∀ i ∈ items, i.WellFormed)
    (hblanks : Blanks blanks)
    (first : Bool)
    (rest : List UInt8) :
    Reader.fieldsFrom first fields st
        (blanks ++ (joined first (items.map Item.text) ++ closeArray :: rest)) =
          .ok (st', rest') ↔
      rest' = rest ∧ TakesFields fields st items st' := by
  induction items generalizing first fields st blanks with
  | nil =>
      have hclose : skipBlanks (blanks ++ (joined first [] ++ closeArray :: rest)) =
          closeArray :: rest := skipBlanks_append_cons hblanks (by decide) rest
      rw [takesFields_nil, List.map_nil, fieldsFrom_of_closed hclose]
      simp only [Except.ok.injEq, Prod.mk.injEq]
      rw [and_comm, eq_comm, eq_comm (a := st)]
  | cons i items ih =>
      obtain ⟨hi, hothers⟩ := List.forall_mem_cons.mp hitems
      obtain ⟨b, s, hskip, hclose, hstart⟩ := itemStart_item hi hblanks first
        (joined false (items.map Item.text) ++ closeArray :: rest)
      have hitems : Delimited (joined false (items.map Item.text) ++ closeArray :: rest) :=
        delimited_joined (delimited_closeArray rest)
      have hbehind := hitems.append hi.framed.behind
      rw [List.map_cons, joined, List.append_assoc, List.append_assoc]
      cases fields with
      | nil =>
          rw [Reader.fieldsFrom, hskip]
          simp only [if_neg hclose, reduceCtorEq, false_iff, not_and]
          exact fun _ => not_takesFields_of_no_field
      | cons f fields =>
          obtain ⟨hf, hfields⟩ := List.forall_mem_cons.mp hlocal
          have hsettled := hf st _ hi.value
          rw [Reader.fieldsFrom, hskip, takesFields_cons]
          simp only [if_neg hclose, Reader.readItem, hstart]
          constructor
          · intro h
            split at h
            · cases h
            · rename_i st₁ s₁ hitem
              obtain ⟨rfl, htakes⟩ := (hsettled.run_iff blanks_nil hbehind).mp hitem
              obtain ⟨rfl, hfollowing⟩ := (ih hfields hothers hi.framed.behind false).mp h
              exact ⟨rfl, st₁, htakes, hfollowing⟩
          · rintro ⟨rfl, st₁, htakes, hfollowing⟩
            have hrun := htakes [] _ blanks_nil hbehind
            rw [List.nil_append] at hrun
            rw [hrun]
            exact (ih hfields hothers hi.framed.behind false).mpr ⟨rfl, hfollowing⟩

end Json
end ServingAdmin
