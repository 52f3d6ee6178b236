import Mathlib.Data.List.Nodup
import ServingAdmin.CommandLine.Reader
import ServingAdmin.Proofs.Checks

/-!
# Spellings of what a command is given

A command is given a list of choices: options, each with its value if it takes one.  The value
can be attached to the word of its option or be the next word, so that there are several lines
of words for one list of choices (`SpelledLine`).

A command that offers the options of the choices, each of them once, reads every such line as
what the choices are (`readLevel_of_spelledLine`): one mention for each of them, in their order.
-/

namespace ServingAdmin
namespace CommandLine

variable {α : Type}

/-- An option that is given, with its value if it takes one. -/
structure Choice where
  name : String
  value : Option String
  deriving DecidableEq

/-- The word that gives an option. -/
def optionWord
    (name : String) :
    String :=
  "--" ++ name

/-- A value that may be a word of its own: it does not begin with a hyphen, or it is only that. -/
def StandsAlone
    (value : String) :
    Prop :=
  value.toList.head? ≠ some '-' ∨ value = "-"

instance (value : String) : Decidable (StandsAlone value) :=
  inferInstanceAs (Decidable (_ ∨ _))

/-- A value that may be attached behind an equals sign: it does not begin with another one. -/
def Attaches
    (value : String) :
    Prop :=
  value.toList.head? ≠ some '='

instance (value : String) : Decidable (Attaches value) :=
  inferInstanceAs (Decidable (_ ≠ _))

theorem StandsAlone.ne_hyphens
    {value : String}
    (h : StandsAlone value) :
    value ≠ "--" := by
  rintro rfl
  exact absurd h (by decide)

theorem Attaches.dropEquals
    {value : String}
    (h : Attaches value) :
    value.toList.dropWhile (· = '=') = value.toList := by
  cases hchars : value.toList with
  | nil => rfl
  | cons c rest =>
      have hc : c ≠ '=' := by
        simpa [Attaches, hchars] using h
      simp [hc]

/-- The words that a choice can be written in. -/
inductive Choice.Spelled : Choice → List String → Prop
  | flag
      (name : String) :
      Spelled ⟨name, none⟩ [optionWord name]
  | attached
      {name value : String}
      (h : Attaches value) :
      Spelled ⟨name, some value⟩ [optionWord name ++ "=" ++ value]
  | separate
      {name value : String}
      (h : StandsAlone value) :
      Spelled ⟨name, some value⟩ [optionWord name, value]

/-- The lines of words that choices can be written in, one after the other. -/
inductive SpelledLine : List Choice → List String → Prop
  | nil :
      SpelledLine [] []
  | cons
      {c : Choice}
      {choices : List Choice}
      {words rest : List String}
      (head : c.Spelled words)
      (tail : SpelledLine choices rest) :
      SpelledLine (c :: choices) (words ++ rest)

/-! ### What choices come to -/

/-- The mention of a choice that is made once. -/
def Choice.mention
    (c : Choice) :
    Mention :=
  ⟨c.name, 1, c.value.toList⟩

/-- What is given by choices that are made once each. -/
def Given.ofChoices
    (choices : List Choice) :
    Given :=
  ⟨choices.map Choice.mention⟩

/-- What is given with one choice more. -/
def Given.choosing
    (g : Given)
    (c : Choice) :
    Given :=
  match c.value with
  | none => g.mention c.name
  | some value => (g.mention c.name).put c.name value

theorem Given.changing_of_not_mem
    {name : String}
    {mentions : List Mention}
    (h : name ∉ mentions.map Mention.name)
    (f : Mention → Mention) :
    changing name f mentions = mentions ++ [f ⟨name, 0, []⟩] := by
  induction mentions with
  | nil => rfl
  | cons m rest ih =>
      simp only [List.map_cons, List.mem_cons, not_or] at h
      rw [changing, if_neg (Ne.symm h.1), ih h.2]
      rfl

theorem Given.changing_append_of_not_mem
    {name : String}
    {mentions : List Mention}
    (h : name ∉ mentions.map Mention.name)
    {m : Mention}
    (hm : m.name = name)
    (f : Mention → Mention) :
    changing name f (mentions ++ [m]) = mentions ++ [f m] := by
  induction mentions with
  | nil => simp [changing, hm]
  | cons n rest ih =>
      simp only [List.map_cons, List.mem_cons, not_or] at h
      rw [List.cons_append, changing, if_neg (Ne.symm h.1), ih h.2]
      rfl

/-- A first choice of an option is mentioned behind the others. -/
theorem Given.choosing_of_not_mem
    {g : Given}
    {c : Choice}
    (h : c.name ∉ g.mentions.map Mention.name) :
    g.choosing c = ⟨g.mentions ++ [c.mention]⟩ := by
  obtain ⟨name, value⟩ := c
  cases value with
  | none => simp [choosing, mention, changing_of_not_mem h, Choice.mention]
  | some value =>
      simp [choosing, mention, put, changing_of_not_mem h, Choice.mention,
        changing_append_of_not_mem h]

/-- Choices of different options are mentioned in their order. -/
theorem Given.foldl_choosing
    {g : Given}
    {choices : List Choice}
    (hdistinct : (g.mentions.map Mention.name ++ choices.map Choice.name).Nodup) :
    choices.foldl choosing g = ⟨g.mentions ++ choices.map Choice.mention⟩ := by
  induction choices generalizing g with
  | nil => simp
  | cons c choices ih =>
      have hnew : c.name ∉ g.mentions.map Mention.name := by
        intro hmem
        exact (List.nodup_append.mp hdistinct).2.2 _ hmem _ (by simp) rfl
      rw [List.foldl_cons, choosing_of_not_mem hnew, ih]
      · simp
      · simpa [Choice.mention] using hdistinct

theorem Given.find?_ofChoices
    (choices : List Choice)
    (name : String) :
    (ofChoices choices).find? name =
      (choices.find? (·.name = name)).map Choice.mention := by
  rw [ofChoices, find?, List.find?_map]
  rfl

/-- An option is given by the choices that are made of it. -/
theorem Given.has_ofChoices_iff
    (choices : List Choice)
    (name : String) :
    (ofChoices choices).has name = true ↔ ∃ c ∈ choices, c.name = name := by
  simp [has, find?_ofChoices]

/-- Of choices of different options, the value of an option is the one of its choice. -/
theorem Given.value?_ofChoices_eq_some_iff
    {choices : List Choice}
    (hdistinct : (choices.map Choice.name).Nodup)
    (name value : String) :
    (ofChoices choices).value? name = some value ↔ ⟨name, some value⟩ ∈ choices := by
  rw [value?, find?_ofChoices]
  constructor
  · intro h
    obtain ⟨m, hm, hvalue⟩ := Option.bind_eq_some_iff.mp h
    obtain ⟨c, hc, rfl⟩ := Option.map_eq_some_iff.mp hm
    have hname : c.name = name := by
      simpa using List.find?_some hc
    have hsome : c.value = some value := by
      cases hcv : c.value <;> simp_all [Choice.mention]
    rw [← hname, ← hsome]
    exact List.mem_of_find?_eq_some hc
  · intro hmem
    cases hfound : choices.find? (·.name = name) with
    | none => simpa using List.find?_eq_none.mp hfound _ hmem
    | some c =>
        have hname : c.name = name := by
          simpa using List.find?_some hfound
        have hc : c = ⟨name, some value⟩ :=
          List.inj_on_of_nodup_map hdistinct (List.mem_of_find?_eq_some hfound) hmem hname
        simp [hc, Choice.mention]

/-! ### Reading one choice -/

/-- A name that can be told from the hyphens before it and from a value behind it. -/
structure PlainWord
    (name : String) :
    Prop where
  nonempty : name ≠ ""
  noHyphen : name.toList.head? ≠ some '-'
  noEquals : '=' ∉ name.toList

instance (name : String) : Decidable (PlainWord name) :=
  decidable_of_iff (name ≠ "" ∧ name.toList.head? ≠ some '-' ∧ '=' ∉ name.toList)
    ⟨fun h => ⟨h.1, h.2.1, h.2.2⟩, fun h => ⟨h.nonempty, h.noHyphen, h.noEquals⟩⟩

/-- Options that a choice can be made of. -/
structure Offers
    (options : List Opt)
    (c : Choice) :
    Prop where
  plain : PlainWord c.name
  option :
    ∃ o, options.find? (·.word = some c.name) = some o ∧
      options.find? (·.name = c.name) = some o ∧ o.hasValue = c.value.isSome

theorem toList_optionWord
    (name : String) :
    (optionWord name).toList = '-' :: '-' :: name.toList := by
  rw [optionWord, String.toList_append]
  rfl

/-- What stands behind the name of an option: nothing, or an equals sign and a value. -/
def IsAttachment
    (attached : List Char) :
    Prop :=
  attached = [] ∨ attached.head? = some '='

theorem IsAttachment.takeWhile
    {attached : List Char}
    (h : IsAttachment attached) :
    attached.takeWhile (· ≠ '=') = [] := by
  cases attached with
  | nil => rfl
  | cons c rest =>
      have hc : c = '=' := by
        simpa [IsAttachment] using h
      simp [hc]

theorem IsAttachment.dropWhile
    {attached : List Char}
    (h : IsAttachment attached) :
    attached.dropWhile (· ≠ '=') = attached := by
  cases attached with
  | nil => rfl
  | cons c rest =>
      have hc : c = '=' := by
        simpa [IsAttachment] using h
      simp [hc]

namespace PlainWord

variable {name : String}

theorem toList_ne_nil
    (h : PlainWord name) :
    name.toList ≠ [] :=
  fun hnil => h.nonempty (String.toList_eq_nil_iff.mp hnil)

theorem optionWord_append_ne
    (h : PlainWord name)
    (attached : String) :
    optionWord name ++ attached ≠ "--" := by
  intro heq
  have hlist := congrArg String.toList heq
  rw [String.toList_append, toList_optionWord] at hlist
  have hbehind : name.toList ++ attached.toList = [] := by
    simpa using hlist
  exact h.toList_ne_nil (List.append_eq_nil_iff.mp hbehind).1

/-- No hyphens stand before the name. -/
theorem dropHyphens
    (h : PlainWord name)
    (attached : List Char) :
    (name.toList ++ attached).dropWhile (· = '-') = name.toList ++ attached := by
  obtain ⟨c, rest, hchars⟩ := List.exists_cons_of_ne_nil h.toList_ne_nil
  have hc : c ≠ '-' := by
    simpa [hchars] using h.noHyphen
  simp [hchars, hc]

theorem ne_equals_of_mem
    (h : PlainWord name)
    {c : Char}
    (hc : c ∈ name.toList) :
    decide (c ≠ '=') = true :=
  decide_eq_true fun heq => h.noEquals (heq ▸ hc)

theorem takeName
    (h : PlainWord name)
    {attached : List Char}
    (hattached : IsAttachment attached) :
    (name.toList ++ attached).takeWhile (· ≠ '=') = name.toList := by
  rw [List.takeWhile_append_of_pos fun c hc => h.ne_equals_of_mem hc, hattached.takeWhile,
    List.append_nil]

theorem dropName
    (h : PlainWord name)
    {attached : List Char}
    (hattached : IsAttachment attached) :
    (name.toList ++ attached).dropWhile (· ≠ '=') = attached := by
  rw [List.dropWhile_append_of_pos fun c hc => h.ne_equals_of_mem hc, hattached.dropWhile]

end PlainWord

namespace Progress

/-- A word that gives an option is taken as that, with what is attached to it. -/
theorem read_optionWord
    {options : List Opt}
    {o : Opt}
    {name attached : String}
    (hname : PlainWord name)
    (ho : options.find? (·.word = some name) = some o)
    (hattached : IsAttachment attached.toList)
    (path : List String)
    (p : Progress) :
    p.read options path (optionWord name ++ attached) = .ok (p.takeOption o attached.toList) := by
  have hword : (optionWord name ++ attached).toList =
      '-' :: '-' :: (name.toList ++ attached.toList) := by
    rw [String.toList_append, toList_optionWord]
    rfl
  simp only [read, hword, readWord, hname.dropHyphens, hname.takeName hattached,
    hname.dropName hattached, String.ofList_toList, ho]

/-- A word that stands alone is the value of an option that waits for one. -/
theorem read_of_standsAlone
    {value : String}
    (h : StandsAlone value)
    (options : List Opt)
    (path : List String)
    {p : Progress}
    {name : String}
    (hp : p.waiting = some name) :
    p.read options path value =
      .ok { p with given := p.given.put name value, waiting := none } := by
  rcases h with hhead | rfl
  · cases hchars : value.toList with
    | nil => simp [read, hchars, hp]
    | cons c rest =>
        have hc : c ≠ '-' := by
          simpa [hchars] using hhead
        simp [read, hchars, hp, hc]
  · simp [read, hp]

/-- What has been read with one choice more. -/
def choosing
    (p : Progress)
    (c : Choice) :
    Progress :=
  { p with given := p.given.choosing c }

theorem choosing_of_waiting
    {p : Progress}
    (hp : p.waiting = none)
    (c : Choice) :
    p.choosing c = { p with given := p.given.choosing c, waiting := none } := by
  rw [choosing, hp]

end Progress

/-! ### Reading a line -/

section Lines

variable {tool : Tool α} {path : List String}
variable {name : String} {aliases : List String}
variable {options : List Opt} {arguments : List String} {build : Given → α}

/-- A command reads its words one by one. -/
theorem Tool.readLevel_command_cons
    {word : String}
    (hword : word ≠ "--")
    (rest : List String)
    (p : Progress) :
    tool.readLevel path (.command name aliases options arguments build) false p (word :: rest) =
      p.read (options ++ tool.general) path word >>= fun p' =>
        tool.readLevel path (.command name aliases options arguments build) false p' rest := by
  rw [readLevel]
  simp [hword, Level.member?, Level.members, Level.options]

/-- However a choice is written, it is read as that choice. -/
theorem Tool.readLevel_spelled
    {c : Choice}
    {words : List String}
    (hoffers : Offers (options ++ tool.general) c)
    (hwords : c.Spelled words)
    (rest : List String)
    {p : Progress}
    (hp : p.waiting = none) :
    tool.readLevel path (.command name aliases options arguments build) false p (words ++ rest) =
      tool.readLevel path (.command name aliases options arguments build) false (p.choosing c)
        rest := by
  obtain ⟨hplain, o, hword, hname, hvalue⟩ := hoffers
  have honame : o.name = c.name := by
    simpa using List.find?_some hname
  have hfirst : ∀ attached rest', IsAttachment attached.toList →
      tool.readLevel path (.command name aliases options arguments build) false p
          ((optionWord c.name ++ attached) :: rest') =
        tool.readLevel path (.command name aliases options arguments build) false
          (p.takeOption o attached.toList) rest' := by
    intro attached rest' hattached
    rw [readLevel_command_cons (hplain.optionWord_append_ne attached),
      Progress.read_optionWord hplain hword hattached]
    rfl
  cases hwords with
  | flag n =>
      have h := hfirst "" rest (Or.inl rfl)
      rw [String.append_empty] at h
      rw [List.singleton_append, h, Progress.choosing_of_waiting hp, Progress.takeOption, hvalue]
      simp [honame, Given.choosing]
  | @attached n value hattaches =>
      have h := hfirst ("=" ++ value) rest (Or.inr (by simp))
      rw [← String.append_assoc] at h
      rw [List.singleton_append, h, Progress.choosing_of_waiting hp, Progress.takeOption, hvalue]
      simp [honame, Given.choosing, hattaches.dropEquals]
  | @separate n value halone =>
      have h := hfirst "" (value :: rest) (Or.inl rfl)
      have hwaiting : (p.takeOption o []).waiting = some n := by
        simp [Progress.takeOption, hvalue, honame]
      have hput : ((p.takeOption o []).given.put n value) = p.given.choosing ⟨n, some value⟩ := by
        simp [Progress.takeOption, hvalue, honame, Given.choosing]
      rw [String.append_empty] at h
      rw [List.cons_append, List.singleton_append, h, readLevel_command_cons halone.ne_hyphens,
        String.toList_empty, Progress.read_of_standsAlone halone _ path hwaiting, hput,
        Progress.choosing_of_waiting hp]
      simp [Progress.takeOption, hvalue]
      rfl

/-- However choices of different options are written, they are read as those choices. -/
theorem Tool.readLevel_line
    {choices : List Choice}
    {words : List String}
    (hwords : SpelledLine choices words)
    (hoffers : ∀ c ∈ choices, Offers (options ++ tool.general) c)
    {p : Progress}
    (hp : p.waiting = none) :
    tool.readLevel path (.command name aliases options arguments build) false p words =
      tool.readLevel path (.command name aliases options arguments build) false
        (choices.foldl Progress.choosing p) [] := by
  induction hwords generalizing p with
  | nil => rfl
  | cons hhead _ ih =>
      rw [readLevel_spelled (hoffers _ List.mem_cons_self) hhead _ hp, List.foldl_cons,
        ih (fun c hc => hoffers c (List.mem_cons_of_mem _ hc))]
      exact hp

theorem Progress.foldl_choosing
    (p : Progress)
    (choices : List Choice) :
    choices.foldl choosing p = { p with given := choices.foldl Given.choosing p.given } := by
  induction choices generalizing p with
  | nil => rfl
  | cons c choices ih => exact ih (p.choosing c)

/-- Choices of different options that are offered, and of which none is required, pass the check of
what is given. -/
theorem Progress.check_ofChoices
    {choices : List Choice}
    {offered : List Opt}
    (hoffers : ∀ c ∈ choices, Offers offered c)
    (hrequired : ∀ o ∈ offered, o.isRequired = false) :
    check offered [] ⟨.ofChoices choices, none, []⟩ = .ok () := by
  have hnone : offered.filter Opt.isRequired = [] := by
    simpa using hrequired
  have hmentions : ∀ m ∈ choices.map Choice.mention, checkMention offered m = .ok () := by
    intro m hm
    obtain ⟨c, hc, rfl⟩ := List.mem_map.mp hm
    obtain ⟨o, _, hname, hvalue⟩ := (hoffers c hc).option
    have hfound : offered.find? (·.name = c.mention.name) = some o := hname
    rw [checkMention, hfound]
    cases hc : c.value <;> simp [Choice.mention, hvalue, hc]
  simp only [check, lacksRequired, hnone, lacksValue, Given.ofChoices]
  exact forM_eq_ok_iff.mpr hmentions

/-- However choices of different options are written, a command that offers these options and
requires none reads them as what they are. -/
theorem Tool.readLevel_of_spelledLine
    {choices : List Choice}
    {words : List String}
    (hwords : SpelledLine choices words)
    (hoffers : ∀ c ∈ choices, Offers (options ++ tool.general) c)
    (hdistinct : (choices.map Choice.name).Nodup)
    (hrequired : ∀ o ∈ options ++ tool.general, o.isRequired = false) :
    tool.readLevel path (.command name aliases options [] build) false (.start []) words =
      .ok ⟨[], [.ofChoices choices], build (.ofChoices choices)⟩ := by
  have hgiven : choices.foldl Given.choosing .nothing = .ofChoices choices :=
    Given.foldl_choosing hdistinct
  rw [readLevel_line hwords hoffers rfl, Progress.foldl_choosing, readLevel]
  simp only [Progress.start, hgiven, Progress.check_ofChoices hoffers hrequired]
  rfl

end Lines

end CommandLine
end ServingAdmin
