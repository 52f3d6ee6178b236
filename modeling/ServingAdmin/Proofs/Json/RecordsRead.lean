import ServingAdmin.Proofs.Json.ValuesRead

/-!
# Records are read whatever else is in them

An object is read if its members are, one after the other, and a record in the form of an array if
its items are.  So a record is read as it was before when its object is grown by a member of a name
that no field has, wherever the member is put in (`Grown.readAlike_record`).  This holds of the
records inside others as well: a value in an object or in an array may be changed into any value
that is read alike (`ChangedUnder.readAlike_record`, `ChangedUnder.readAlike_mapOf`,
`ChangedFirst.readAlike_record`).
-/

namespace ServingAdmin
namespace Json

open Octet

variable {α β σ : Type} {r : Reader α} {v v' blanks : List UInt8}
  {onName : σ → String → Except Fault (Reader σ)} {st st' : σ} {m : Member}
  {members before after : List Member} {fields : List (Reader.Field σ)} {items : List Item}

/-! ### Objects, maps and records -/

theorem settled_members
    {r : Reader σ}
    (hrun : ∀ front rest, Blanks front → r.run (front ++ (objectText blanks members ++ rest)) =
      Reader.membersFrom onName true st
        (blanks ++ (joined true (members.map Member.text) ++ closeObject :: rest)))
    (hlocal : ∀ st name r, onName st name = .ok r → r.Local)
    (hmembers : ∀ m ∈ members, m.WellFormed)
    (hblanks : Blanks blanks) :
    Settled r (objectText blanks members) (TakesMembers onName st members) := by
  refine ⟨fun hfront _ => ?_⟩
  rw [hrun _ _ hfront]
  exact membersFrom_iff hlocal hmembers hblanks true _

theorem settled_object
    (hlocal : ∀ st name r, onName st name = .ok r → r.Local)
    (hmembers : ∀ m ∈ members, m.WellFormed)
    (hblanks : Blanks blanks) :
    Settled (Reader.object onName st) (objectText blanks members)
      (TakesMembers onName st members) := by
  refine settled_members (fun front rest hfront => ?_) hlocal hmembers hblanks
  have hblank : isBlank openObject = false := by
    decide
  rw [objectText_append]
  simp only [Reader.object, Reader.fromOctet, skipBlanks_append_cons hfront hblank, if_true]

theorem Reader.Local.object
    (hlocal : ∀ st name r, onName st name = .ok r → r.Local)
    (st : σ) :
    (Reader.object onName st).Local := by
  intro v hv
  have hfault : ∀ {b : UInt8} {t : List UInt8}, v = b :: t → isBlank b = false → b ≠ openObject →
      Settled (Reader.object onName st) v (Takes (Reader.object onName st) v) := by
    rintro b t rfl hblank hopen
    refine settled_of_takes fun hblanks hrest hrun => ?_
    rw [List.cons_append] at hrun
    simp only [Reader.object, Reader.fromOctet, skipBlanks_append_cons hblanks hblank,
      if_neg hopen, reduceCtorEq] at hrun
  cases hv with
  | scalar hs =>
      obtain ⟨b, t, hv, hblank, -, hopen, -⟩ := hs.head
      exact hfault hv hblank hopen
  | array => exact hfault rfl (by decide) (by decide)
  | object hblanks hframed hvalues =>
      exact (settled_object hlocal (fun m hm => ⟨hframed m hm, hvalues m hm⟩) hblanks).settled_takes

/-- How a member of an object changes a map. -/
def onEntry
    (r : Reader α)
    (m : KeyMap α)
    (name : String) :
    Except Fault (Reader (KeyMap α)) :=
  .ok (r.map (m.insert name))

theorem local_onEntry
    (h : r.Local) :
    ∀ (m : KeyMap α) (name : String) (r' : Reader (KeyMap α)),
      onEntry r m name = .ok r' → r'.Local := by
  rintro m name r' hr
  obtain rfl := Except.ok.inj hr
  exact h.map _

theorem settled_mapOf
    (h : r.Local)
    (hmembers : ∀ m ∈ members, m.WellFormed)
    (hblanks : Blanks blanks) :
    Settled (Reader.mapOf r) (objectText blanks members)
      (TakesMembers (onEntry r) .empty members) :=
  settled_object (local_onEntry h) hmembers hblanks

theorem Reader.Local.mapOf
    (h : r.Local) :
    (Reader.mapOf r).Local :=
  .object (local_onEntry h) .empty

/-- A member is passed over, or a field of its name is read. -/
theorem onField_eq_ok
    {name : String}
    {r : Reader σ}
    (h : Reader.onField fields st name = .ok r) :
    r = Reader.skipping st ∨ ∃ f ∈ fields, f.name = name ∧ r = f.read st := by
  rw [Reader.onField] at h
  split at h
  · exact .inl (Except.ok.inj h).symm
  · rename_i f hfind
    split at h
    · cases h
    · exact .inr ⟨f, List.mem_of_find?_eq_some hfind, by simpa using List.find?_some hfind,
        (Except.ok.inj h).symm⟩

theorem local_onField
    (h : ∀ f ∈ fields, ∀ st, (f.read st).Local) :
    ∀ (st : σ) (name : String) (r : Reader σ),
      Reader.onField fields st name = .ok r → r.Local := by
  intro st name r hr
  rcases onField_eq_ok hr with rfl | ⟨f, hf, -, rfl⟩
  · exact local_skipping st
  · exact h f hf st

theorem settled_record_object
    (hlocal : ∀ f ∈ fields, ∀ st, (f.read st).Local)
    (hmembers : ∀ m ∈ members, m.WellFormed)
    (hblanks : Blanks blanks) :
    Settled (Reader.record fields st) (objectText blanks members)
      (TakesMembers (Reader.onField fields) st members) := by
  refine settled_members (fun front rest hfront => ?_) (local_onField hlocal) hmembers hblanks
  have hblank : isBlank openObject = false := by
    decide
  rw [objectText_append]
  simp only [Reader.record, Reader.fromOctet, skipBlanks_append_cons hfront hblank, if_true]

theorem settled_record_array
    (hlocal : ∀ f ∈ fields, ∀ st, (f.read st).Local)
    (hitems : ∀ i ∈ items, i.WellFormed)
    (hblanks : Blanks blanks) :
    Settled (Reader.record fields st) (arrayText blanks items)
      (TakesFields fields st items) := by
  refine ⟨fun hfront _ => ?_⟩
  have hblank : isBlank openArray = false := by
    decide
  have hopen : openArray ≠ openObject := by
    decide
  rw [arrayText_append]
  simp only [Reader.record, Reader.fromOctet, skipBlanks_append_cons hfront hblank, if_neg hopen,
    if_true]
  exact fieldsFrom_iff hlocal hitems hblanks true _

theorem Reader.Local.record
    (hlocal : ∀ f ∈ fields, ∀ st, (f.read st).Local)
    (st : σ) :
    (Reader.record fields st).Local := by
  intro v hv
  cases hv with
  | scalar hs =>
      obtain ⟨b, t, rfl, hblank, hopenArray, hopenObject, -⟩ := hs.head
      refine settled_of_takes fun hblanks hrest hrun => ?_
      rw [List.cons_append] at hrun
      simp only [Reader.record, Reader.fromOctet, skipBlanks_append_cons hblanks hblank,
        if_neg hopenArray, if_neg hopenObject, reduceCtorEq] at hrun
  | array hblanks hframed hvalues =>
      exact (settled_record_array hlocal (fun i hi => ⟨hframed i hi, hvalues i hi⟩)
        hblanks).settled_takes
  | object hblanks hframed hvalues =>
      exact (settled_record_object hlocal (fun m hm => ⟨hframed m hm, hvalues m hm⟩)
        hblanks).settled_takes

/-! ### Values that are read alike -/

/-- A reader makes the same of two values. -/
def ReadAlike
    (r : Reader α)
    (v v' : List UInt8) :
    Prop :=
  ∀ a, Takes r v a ↔ Takes r v' a

theorem Settled.readAlike
    {reading reading' : α → Prop}
    (h : Settled r v reading)
    (h' : Settled r v' reading')
    (hreading : ∀ a, reading a ↔ reading' a) :
    ReadAlike r v v' :=
  fun a => h.takes_iff.trans ((hreading a).trans h'.takes_iff.symm)

theorem ReadAlike.map
    (h : ReadAlike r v v')
    (hlocal : r.Local)
    (hv : IsValue v)
    (hv' : IsValue v')
    (f : α → β) :
    ReadAlike (r.map f) v v' :=
  (settled_map hlocal hv f).readAlike (settled_map hlocal hv' f) fun b => by
    simp only [h _]

theorem readAlike_skipping
    (hv : IsValue v)
    (hv' : IsValue v')
    (a : α) :
    ReadAlike (Reader.skipping a) v v' := by
  intro b
  constructor
  · intro h
    rw [h.unique (takes_skipping hv a)]
    exact takes_skipping hv' a
  · intro h
    rw [h.unique (takes_skipping hv' a)]
    exact takes_skipping hv a

/-! ### Members put in -/

/-- An object and the object that it becomes when a member is put in at some place, the name of
which is none of those that are known. -/
inductive Grown
    (known : List String) :
    List UInt8 → List UInt8 → Prop
  | member
      {blanks : List UInt8}
      {before after : List Member}
      {m : Member}
      {name : String}
      (hblanks : Blanks blanks)
      (hothers : ∀ o ∈ before ++ after, o.WellFormed)
      (hm : m.WellFormed)
      (hname : m.Named name)
      (hunknown : name ∉ known) :
      Grown known (objectText blanks (before ++ after)) (objectText blanks (before ++ m :: after))

theorem isValue_arrayText
    (hblanks : Blanks blanks)
    (hitems : ∀ i ∈ items, i.WellFormed) :
    IsValue (arrayText blanks items) :=
  .array hblanks (fun i hi => (hitems i hi).framed) fun i hi => (hitems i hi).value

theorem isValue_objectText
    (hblanks : Blanks blanks)
    (hmembers : ∀ m ∈ members, m.WellFormed) :
    IsValue (objectText blanks members) :=
  .object hblanks (fun m hm => (hmembers m hm).framed) fun m hm => (hmembers m hm).value

theorem forall_mem_insert
    {p : Member → Prop}
    (hothers : ∀ o ∈ before ++ after, p o)
    (hm : p m) :
    ∀ o ∈ before ++ m :: after, p o := by
  simp only [List.forall_mem_append, List.forall_mem_cons] at hothers ⊢
  exact ⟨hothers.1, hm, hothers.2⟩

theorem Grown.isValue
    {known : List String}
    (h : Grown known v v') :
    IsValue v ∧ IsValue v' := by
  obtain ⟨hblanks, hothers, hm, -, -⟩ := h
  exact ⟨isValue_objectText hblanks hothers,
    isValue_objectText hblanks (forall_mem_insert hothers hm)⟩

theorem onField_unknown
    {name : String}
    (h : name ∉ fields.map Reader.Field.name) :
    Reader.onField fields st name = .ok (Reader.skipping st) := by
  have hfind : fields.find? (fun f => f.name = name) = none := by
    simpa using h
  rw [Reader.onField, hfind]

/-- A member of a name that no field has is passed over, and the record stays as it is. -/
theorem takesMember_unknown
    {name : String}
    (hm : m.WellFormed)
    (hname : m.Named name)
    (hunknown : name ∉ fields.map Reader.Field.name) :
    TakesMember (Reader.onField fields) st m st' ↔ st' = st := by
  constructor
  · rintro ⟨name', r, hname', hr, htakes⟩
    obtain rfl := hname.unique hname'
    rw [onField_unknown hunknown] at hr
    obtain rfl := Except.ok.inj hr
    exact htakes.unique (takes_skipping hm.value st)
  · rintro rfl
    exact ⟨name, _, hname, onField_unknown hunknown, takes_skipping hm.value st'⟩

/-- Wherever a member of a name that no field has is put in, the record is read as before. -/
theorem Grown.readAlike_record
    (h : Grown (fields.map Reader.Field.name) v v')
    (hlocal : ∀ f ∈ fields, ∀ st, (f.read st).Local)
    (st : σ) :
    ReadAlike (Reader.record fields st) v v' := by
  obtain ⟨hblanks, hothers, hm, hname, hunknown⟩ := h
  refine (settled_record_object hlocal hothers hblanks).readAlike
    (settled_record_object hlocal (forall_mem_insert hothers hm) hblanks) fun st' => ?_
  simp only [takesMembers_append, takesMembers_cons, takesMember_unknown hm hname hunknown,
    exists_eq_left]

/-! ### Values changed inside others -/

variable {change : List UInt8 → List UInt8 → Prop}

def Item.withValue
    (i : Item)
    (v : List UInt8) :
    Item :=
  { i with value := v }

def Member.withValue
    (m : Member)
    (v : List UInt8) :
    Member :=
  { m with item := m.item.withValue v }

/-- An object and the object that it becomes when the value of a member is changed, the name of
which is one of certain names. -/
inductive ChangedUnder
    (names : String → Prop)
    (change : List UInt8 → List UInt8 → Prop) :
    List UInt8 → List UInt8 → Prop
  | member
      {blanks v : List UInt8}
      {before after : List Member}
      {m : Member}
      {name : String}
      (hblanks : Blanks blanks)
      (hothers : ∀ o ∈ before ++ after, o.WellFormed)
      (hm : m.Framed)
      (hname : m.Named name)
      (hnames : names name)
      (hchange : change m.item.value v) :
      ChangedUnder names change (objectText blanks (before ++ m :: after))
        (objectText blanks (before ++ m.withValue v :: after))

/-- An array and the array that it becomes when its first item is changed. -/
inductive ChangedFirst
    (change : List UInt8 → List UInt8 → Prop) :
    List UInt8 → List UInt8 → Prop
  | item
      {blanks v : List UInt8}
      {i : Item}
      {items : List Item}
      (hblanks : Blanks blanks)
      (hothers : ∀ o ∈ items, o.WellFormed)
      (hi : i.Framed)
      (hchange : change i.value v) :
      ChangedFirst change (arrayText blanks (i :: items))
        (arrayText blanks (i.withValue v :: items))

theorem Item.Framed.withValue
    {i : Item}
    (h : i.Framed)
    (v : List UInt8) :
    (i.withValue v).Framed :=
  ⟨h.before, h.behind⟩

theorem Member.Framed.withValue
    (h : m.Framed)
    (v : List UInt8) :
    (m.withValue v).Framed :=
  ⟨h.before, h.name, h.beforeColon, h.item.withValue v⟩

theorem ChangedUnder.isValue
    {names : String → Prop}
    (h : ChangedUnder names change v v')
    (hvalues : ∀ v v', change v v' → IsValue v ∧ IsValue v') :
    IsValue v ∧ IsValue v' := by
  obtain ⟨hblanks, hothers, hm, -, -, hchange⟩ := h
  obtain ⟨hvalue, hvalue'⟩ := hvalues _ _ hchange
  exact ⟨isValue_objectText hblanks (forall_mem_insert hothers ⟨hm, hvalue⟩),
    isValue_objectText hblanks (forall_mem_insert hothers ⟨hm.withValue _, hvalue'⟩)⟩

theorem ChangedFirst.isValue
    (h : ChangedFirst change v v')
    (hvalues : ∀ v v', change v v' → IsValue v ∧ IsValue v') :
    IsValue v ∧ IsValue v' := by
  obtain ⟨hblanks, hothers, hi, hchange⟩ := h
  obtain ⟨hvalue, hvalue'⟩ := hvalues _ _ hchange
  exact ⟨isValue_arrayText hblanks (List.forall_mem_cons.mpr ⟨⟨hi, hvalue⟩, hothers⟩),
    isValue_arrayText hblanks (List.forall_mem_cons.mpr ⟨⟨hi.withValue _, hvalue'⟩, hothers⟩)⟩

/-- The value of a member may be changed into one that is read alike. -/
theorem takesMembers_withValue
    {name : String}
    (hname : m.Named name)
    (h : ∀ st r, onName st name = .ok r → ReadAlike r m.item.value v) :
    TakesMembers onName st (before ++ m :: after) st' ↔
      TakesMembers onName st (before ++ m.withValue v :: after) st' := by
  have hmember : ∀ st st₁,
      TakesMember onName st m st₁ ↔ TakesMember onName st (m.withValue v) st₁ := by
    intro st st₁
    refine exists_congr fun name' => exists_congr fun r => and_congr_right fun hname' =>
      and_congr_right fun hr => ?_
    obtain rfl := hname.unique hname'
    exact h st r hr st₁
  simp only [takesMembers_append, takesMembers_cons, hmember]

theorem ChangedUnder.readAlike_record
    {names : String → Prop}
    (h : ChangedUnder names change v v')
    (hvalues : ∀ v v', change v v' → IsValue v ∧ IsValue v')
    (hlocal : ∀ f ∈ fields, ∀ st, (f.read st).Local)
    (hread : ∀ f ∈ fields, names f.name → ∀ st v v', change v v' → ReadAlike (f.read st) v v')
    (st : σ) :
    ReadAlike (Reader.record fields st) v v' := by
  obtain ⟨hblanks, hothers, hm, hname, hnames, hchange⟩ := h
  obtain ⟨hvalue, hvalue'⟩ := hvalues _ _ hchange
  refine (settled_record_object hlocal (forall_mem_insert hothers ⟨hm, hvalue⟩) hblanks).readAlike
    (settled_record_object hlocal (forall_mem_insert hothers ⟨hm.withValue _, hvalue'⟩) hblanks)
    fun st' => takesMembers_withValue hname fun st r hr => ?_
  rcases onField_eq_ok hr with rfl | ⟨f, hf, rfl, rfl⟩
  · exact readAlike_skipping hvalue hvalue' st
  · exact hread f hf hnames st _ _ hchange

theorem ChangedUnder.readAlike_mapOf
    {names : String → Prop}
    (h : ChangedUnder names change v v')
    (hvalues : ∀ v v', change v v' → IsValue v ∧ IsValue v')
    (hlocal : r.Local)
    (hread : ∀ v v', change v v' → ReadAlike r v v') :
    ReadAlike (Reader.mapOf r) v v' := by
  obtain ⟨hblanks, hothers, hm, hname, -, hchange⟩ := h
  obtain ⟨hvalue, hvalue'⟩ := hvalues _ _ hchange
  refine (settled_mapOf hlocal (forall_mem_insert hothers ⟨hm, hvalue⟩) hblanks).readAlike
    (settled_mapOf hlocal (forall_mem_insert hothers ⟨hm.withValue _, hvalue'⟩) hblanks)
    fun m' => takesMembers_withValue hname fun st r' hr => ?_
  obtain rfl := Except.ok.inj hr
  exact (hread _ _ hchange).map hlocal hvalue hvalue' _

/-- What the first field of a record is read from may be changed in the array form, too. -/
theorem ChangedFirst.readAlike_record
    {f : Reader.Field σ}
    (h : ChangedFirst change v v')
    (hvalues : ∀ v v', change v v' → IsValue v ∧ IsValue v')
    (hlocal : ∀ f' ∈ f :: fields, ∀ st, (f'.read st).Local)
    (hread : ∀ st v v', change v v' → ReadAlike (f.read st) v v')
    (st : σ) :
    ReadAlike (Reader.record (f :: fields) st) v v' := by
  obtain ⟨hblanks, hothers, hi, hchange⟩ := h
  obtain ⟨hvalue, hvalue'⟩ := hvalues _ _ hchange
  refine (settled_record_array hlocal
    (List.forall_mem_cons.mpr ⟨⟨hi, hvalue⟩, hothers⟩) hblanks).readAlike
    (settled_record_array hlocal
      (List.forall_mem_cons.mpr ⟨⟨hi.withValue _, hvalue'⟩, hothers⟩) hblanks) fun st' => ?_
  rw [takesFields_cons, takesFields_cons]
  exact exists_congr fun st₁ => and_congr_left fun _ => hread st _ _ hchange st₁

end Json
end ServingAdmin
