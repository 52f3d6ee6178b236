import Mathlib.Data.List.Basic
import Mathlib.Data.List.TakeWhile
import ServingAdmin.Cluster.Call
import ServingAdmin.Proofs.Text.Split
import ServingAdmin.Registry.Secret

/-!
# Paths that are sent as they are

A path is sent in its resolved form, with codes for some characters.  Nothing of this changes a
path whose segments are plain: then the path that is requested is that of the route, and the route
is found again from it.  The labels of the domain name system, by which namespaces are named, are
plain.
-/

namespace ServingAdmin
namespace Cluster

/-- A character that may be part of a path, stands there for itself and separates nothing. -/
structure PlainChar
    (c : Char) :
    Prop where
  isPathChar : Target.isPathChar c = true
  isPlain : Path.isPlain c = true
  ne_slash : c ≠ '/'
  ne_backslash : c ≠ '\\'

namespace Path

/-- A piece of plain characters that neither stays where it is nor goes back. -/
structure PlainPiece
    (piece : List Char) :
    Prop where
  chars : ∀ c ∈ piece, PlainChar c
  noStep : ¬ (staysHere piece = true ∨ goesBack piece = true)

theorem PlainPiece.noSlash
    {piece : List Char}
    (h : PlainPiece piece) :
    '/' ∉ piece :=
  fun hmem => (h.chars _ hmem).ne_slash rfl

theorem PlainPiece.flatMap_sentChar
    {piece : List Char}
    (h : PlainPiece piece) :
    piece.flatMap sentChar = piece :=
  (List.flatMap_congr fun c hc => if_pos (h.chars c hc).isPlain).trans
    (List.flatMap_singleton' piece)

/-- Pieces that are no steps are resolved as they are. -/
theorem resolve_of_noStep
    {pieces : List (List Char)}
    (h : ∀ piece ∈ pieces, ¬ (staysHere piece = true ∨ goesBack piece = true))
    (before : List (List Char)) :
    resolve before pieces = before.reverse ++ pieces := by
  induction pieces generalizing before with
  | nil => simp [resolve]
  | cons piece rest ih =>
      rw [resolve, if_neg (h piece List.mem_cons_self),
        ih (fun other hother => h other (List.mem_cons_of_mem _ hother)), List.reverse_cons,
        List.append_assoc, List.singleton_append]

section Pieces

variable {pieces : List (List Char)}
variable (h : ∀ piece ∈ pieces, PlainPiece piece)
include h

/-- The characters of a path of plain pieces are slashes and plain characters. -/
theorem slash_or_plainChar
    {c : Char}
    (hc : c ∈ pieces.flatMap ('/' :: ·)) :
    c = '/' ∨ PlainChar c := by
  obtain ⟨piece, hpiece, hmem⟩ := List.mem_flatMap.mp hc
  rcases List.mem_cons.mp hmem with hslash | hmem
  · exact Or.inl hslash
  · exact Or.inr ((h piece hpiece).chars c hmem)

theorem splitAt_of_plain :
    Text.splitAt '/' (pieces.flatMap ('/' :: ·)) = [] :: pieces :=
  Text.splitAt_flatMap_cons fun piece hpiece => (h piece hpiece).noSlash

/-- A path of plain pieces is sent as it is. -/
theorem sent_of_plain :
    sent (pieces.flatMap ('/' :: ·)) = pieces.flatMap ('/' :: ·) := by
  have hslashes : ((pieces.flatMap ('/' :: ·)).map fun c => if c = '\\' then '/' else c) =
      pieces.flatMap ('/' :: ·) := by
    refine (List.map_congr_left fun c hc => ?_).trans (List.map_id _)
    rcases slash_or_plainChar h hc with rfl | hplain
    · rfl
    · exact if_neg hplain.ne_backslash
  rw [sent, Path.pieces, hslashes, splitAt_of_plain h, List.tail_cons,
    resolve_of_noStep fun piece hpiece => (h piece hpiece).noStep]
  exact List.flatMap_congr fun piece hpiece =>
    congrArg ('/' :: ·) (h piece hpiece).flatMap_sentChar

end Pieces

/-- What begins with neither a dot nor a code is not made of dots. -/
theorem dots?_of_head
    {c : Char}
    (hdot : c ≠ '.')
    (hcode : c ≠ '%')
    (rest : List Char) :
    dots? (c :: rest) = none := by
  rw [dots?]
  · exact List.cons_ne_nil c rest
  · exact fun _ h => hdot (List.cons.inj h).1
  · exact fun _ h => hcode (List.cons.inj h).1
  · exact fun _ h => hcode (List.cons.inj h).1

end Path

/-- A segment that is a plain piece of a path. -/
def PlainSegment
    (segment : String) :
    Prop :=
  Path.PlainPiece segment.toList

/-! ### Labels of the domain name system -/

/-- The characters of labels: small letters, digits and the hyphen. -/
def isLabelChar
    (c : Char) :
    Bool :=
  c.isLower || c.isDigit || c = '-'

/-- A text of such characters, as the labels of the domain name system are. -/
def IsDnsLabel
    (name : String) :
    Prop :=
  name.toList.all isLabelChar = true

instance (name : String) : Decidable (IsDnsLabel name) :=
  inferInstanceAs (Decidable (_ = true))

/-- The visible characters that are not plain. -/
def marks : List Char :=
  ['#', '<', '>', '?', '\x60', '"', '\x7b', '\x7d', '/', '\\']

theorem PlainChar.of_not_mem_marks
    {c : Char}
    (hvisible : Target.isVisible c = true)
    (hc : c ∉ marks) :
    PlainChar c := by
  simp only [marks, List.mem_cons, List.not_mem_nil, or_false, not_or] at hc
  constructor <;> simp [Target.isPathChar, Path.isPlain, hvisible, hc]

theorem isVisible_of_isLabelChar
    {c : Char}
    (h : isLabelChar c = true) :
    Target.isVisible c = true := by
  rw [isLabelChar, Bool.or_eq_true, Bool.or_eq_true, decide_eq_true_eq] at h
  rw [Target.isVisible, Bool.and_eq_true, decide_eq_true_eq, decide_eq_true_eq]
  rcases h with (hlower | hdigit) | rfl
  · obtain ⟨hmin, hmax⟩ := Bool.and_eq_true_iff.mp hlower
    have hmin' : 97 ≤ c.toNat := UInt32.le_iff_toNat_le.mp (of_decide_eq_true hmin)
    have hmax' : c.toNat ≤ 122 := UInt32.le_iff_toNat_le.mp (of_decide_eq_true hmax)
    omega
  · obtain ⟨hmin, hmax⟩ : 48 ≤ c.toNat ∧ c.toNat ≤ 57 := Char.isDigit_iff_toNat.mp hdigit
    omega
  · decide

theorem PlainChar.of_isLabelChar
    {c : Char}
    (h : isLabelChar c = true) :
    PlainChar c := by
  have hmarks : marks.all (fun mark => !isLabelChar mark) = true := by
    decide
  refine .of_not_mem_marks (isVisible_of_isLabelChar h) fun hmem => ?_
  have hnot := List.all_eq_true.mp hmarks c hmem
  rw [h] at hnot
  cases hnot

/-- A label is a plain segment. -/
theorem PlainSegment.of_dnsLabel
    {name : String}
    (h : IsDnsLabel name) :
    PlainSegment name := by
  have hchars : ∀ c ∈ name.toList, isLabelChar c = true := List.all_eq_true.mp h
  refine ⟨fun c hc => .of_isLabelChar (hchars c hc), ?_⟩
  cases hname : name.toList with
  | nil => decide
  | cons c rest =>
      have hc := hchars c (by simp [hname])
      have hdot : c ≠ '.' := by
        rintro rfl
        cases hc
      have hcode : c ≠ '%' := by
        rintro rfl
        cases hc
      simp [Path.staysHere, Path.goesBack, Path.dots?_of_head hdot hcode]

/-- A plain segment that means what it says: it is not empty, and no character is written by its
code. -/
structure LiteralSegment
    (segment : String) :
    Prop where
  plain : PlainSegment segment
  nonempty : segment ≠ ""
  noCode : '%' ∉ segment.toList

/-- A label that is not empty is literal. -/
theorem LiteralSegment.of_dnsLabel
    {name : String}
    (h : IsDnsLabel name)
    (hne : name ≠ "") :
    LiteralSegment name where
  plain := .of_dnsLabel h
  nonempty := hne
  noCode hmem := by
    cases List.all_eq_true.mp h '%' hmem

/-! ### Routes -/

theorem Target.ne_of_isPathChar
    {path : List Char}
    (hpath : ∀ c ∈ path, isPathChar c = true)
    (mark : Char)
    (hmark : isPathChar mark = false) :
    ∀ c ∈ path, decide (c ≠ mark) = true := by
  intro c hc
  refine decide_eq_true fun heq => ?_
  rw [← heq, hpath c hc] at hmark
  cases hmark

/-- A target is read as the path before the question mark and the query behind it. -/
theorem Target.read?_of_chars
    {path query : List Char}
    (hpath : ∀ c ∈ path, isPathChar c = true)
    (hquery : ∀ c ∈ query, isQueryChar c = true) :
    read? (path ++ '?' :: query) = some ⟨Path.sent path, some (query.flatMap sentQueryChar)⟩ := by
  have hhash := ne_of_isPathChar hpath '#' (by decide)
  have hmark := ne_of_isPathChar hpath '?' (by decide)
  have hkept : (path ++ '?' :: query).takeWhile (· ≠ '#') = path ++ '?' :: query := by
    have hbehind : ('?' :: query).takeWhile (· ≠ '#') = '?' :: query := by
      refine List.takeWhile_eq_self_iff.mpr fun c hc => decide_eq_true ?_
      rintro rfl
      cases hquery '#' (by simpa using hc)
    rw [List.takeWhile_append_of_pos hhash, hbehind]
  have hbefore : (path ++ '?' :: query).takeWhile (· ≠ '?') = path := by
    rw [List.takeWhile_append_of_pos hmark]
    exact List.append_nil _
  have hbehind : (path ++ '?' :: query).dropWhile (· ≠ '?') = '?' :: query :=
    List.dropWhile_append_of_pos hmark
  simp only [read?, hkept, hbefore, hbehind, List.all_eq_true.mpr hpath,
    List.all_eq_true.mpr hquery, if_true]

/-- A target without a query is read as its path. -/
theorem Target.read?_of_path
    {path : List Char}
    (hpath : ∀ c ∈ path, isPathChar c = true) :
    read? path = some ⟨Path.sent path, none⟩ := by
  have hkept : path.takeWhile (· ≠ '#') = path :=
    List.takeWhile_eq_self_iff.mpr (ne_of_isPathChar hpath '#' (by decide))
  have hmark := ne_of_isPathChar hpath '?' (by decide)
  have hbefore : path.takeWhile (· ≠ '?') = path :=
    List.takeWhile_eq_self_iff.mpr hmark
  have hbehind : path.dropWhile (· ≠ '?') = [] :=
    List.dropWhile_eq_nil_iff.mpr hmark
  simp only [read?, hkept, hbefore, hbehind, List.all_eq_true.mpr hpath, if_true]

/-- What stands behind a hash sign does not matter. -/
theorem Target.read?_append_hash
    {path : List Char}
    (hpath : ∀ c ∈ path, isPathChar c = true)
    (behind : List Char) :
    read? (path ++ '#' :: behind) = read? path := by
  have hhash := ne_of_isPathChar hpath '#' (by decide)
  have hkept : (path ++ '#' :: behind).takeWhile (· ≠ '#') = path.takeWhile (· ≠ '#') := by
    rw [List.takeWhile_append_of_pos hhash, List.takeWhile_eq_self_iff.mpr hhash]
    exact List.append_nil _
  simp only [read?, hkept]

namespace Route

variable {r : Route}

theorem path_eq
    (r : Route) :
    r.path = (r.segments.map String.toList).flatMap ('/' :: ·) := by
  rw [path, List.flatMap_map]

theorem plainPiece_of_mem
    (h : ∀ segment ∈ r.segments, PlainSegment segment) :
    ∀ piece ∈ r.segments.map String.toList, Path.PlainPiece piece := by
  intro piece hpiece
  obtain ⟨segment, hsegment, rfl⟩ := List.mem_map.mp hpiece
  exact h segment hsegment

theorem count_path
    (h : ∀ segment ∈ r.segments, PlainSegment segment) :
    r.path.count '/' = r.segments.length := by
  have hpieces : ∀ piece ∈ r.segments.map String.toList, '/' ∉ piece :=
    fun piece hpiece => (plainPiece_of_mem h piece hpiece).noSlash
  rw [path_eq, Text.count_flatMap_cons hpieces, List.length_map]

theorem isPathChar_of_mem_path
    (h : ∀ segment ∈ r.segments, PlainSegment segment) :
    ∀ c ∈ r.path, Target.isPathChar c = true := by
  intro c hc
  rw [path_eq] at hc
  rcases Path.slash_or_plainChar (plainPiece_of_mem h) hc with rfl | hplain
  · decide
  · exact hplain.isPathChar

theorem sent_path
    (h : ∀ segment ∈ r.segments, PlainSegment segment) :
    Path.sent r.path = r.path := by
  rw [path_eq]
  exact Path.sent_of_plain (plainPiece_of_mem h)

/-- The target of a path of plain segments with a query. -/
theorem read?_path
    (h : ∀ segment ∈ r.segments, PlainSegment segment)
    {query : List Char}
    (hquery : ∀ c ∈ query, Target.isQueryChar c = true) :
    Target.read? (r.path ++ '?' :: query) =
      some ⟨r.path, some (query.flatMap Target.sentQueryChar)⟩ := by
  rw [Target.read?_of_chars (isPathChar_of_mem_path h) hquery, sent_path h]

/-- The target of a path of plain segments without a query. -/
theorem read?_path_bare
    (h : ∀ segment ∈ r.segments, PlainSegment segment) :
    Target.read? r.path = some ⟨r.path, none⟩ := by
  rw [Target.read?_of_path (isPathChar_of_mem_path h), sent_path h]

/-- Behind a hash sign not even the query matters. -/
theorem read?_path_hash
    (h : ∀ segment ∈ r.segments, PlainSegment segment)
    (behind : List Char) :
    Target.read? (r.path ++ '#' :: behind) = some ⟨r.path, none⟩ := by
  rw [Target.read?_append_hash (isPathChar_of_mem_path h), read?_path_bare h]

theorem ofSegments?_segments
    (r : Route) :
    ofSegments? r.segments = some r := by
  cases r with
  | configMap name => simp [segments, ofSegments?]
  | namespaces => rfl
  | secrets ns => simp [segments, ofSegments?]
  | claims => rfl
  | claim name => simp [segments, ofSegments?]

/-- The route of a path of plain segments is found. -/
theorem ofPath?_path
    (h : ∀ segment ∈ r.segments, PlainSegment segment) :
    ofPath? r.path = some r := by
  have hsegments : (r.segments.map String.toList).map String.ofList = r.segments := by
    simp
  rw [ofPath?, path_eq, Path.splitAt_of_plain (plainPiece_of_mem h)]
  simp only [hsegments, ofSegments?_segments]

theorem plain_namespaces :
    ∀ segment ∈ namespaces.segments, PlainSegment segment := by
  have hlabels : ∀ segment ∈ namespaces.segments, IsDnsLabel segment := by
    decide
  exact fun segment hsegment => .of_dnsLabel (hlabels segment hsegment)

theorem plain_secrets
    {ns : String}
    (h : PlainSegment ns) :
    ∀ segment ∈ (secrets ns).segments, PlainSegment segment := by
  intro segment hsegment
  have hcases : segment ∈ namespaces.segments ∨ segment = ns ∨ segment = "secrets" := by
    simpa [segments, or_assoc] using hsegment
  rcases hcases with hfixed | rfl | rfl
  · exact plain_namespaces segment hfixed
  · exact h
  · exact .of_dnsLabel (by decide)

theorem plain_configMap
    {name : String}
    (h : PlainSegment name) :
    ∀ segment ∈ (configMap name).segments, PlainSegment segment := by
  intro segment hsegment
  have hcases : segment = name ∨
      segment ∈ ["api", "v1", "namespaces", servingNamespace, "configmaps"] := by
    simpa [segments, or_left_comm, or_comm, or_assoc] using hsegment
  rcases hcases with rfl | hfixed
  · exact h
  · have hlabels : ∀ fixed ∈ ["api", "v1", "namespaces", servingNamespace, "configmaps"],
        IsDnsLabel fixed := by
      decide
    exact .of_dnsLabel (hlabels segment hfixed)

theorem plain_claims :
    ∀ segment ∈ claims.segments, PlainSegment segment := by
  have hgroup :
      Claim.group.toList.all (fun c => Target.isVisible c && !marks.contains c) = true := by
    decide +kernel
  intro segment hsegment
  have hcases : segment = Claim.group ∨ segment ∈ ["apis", Claim.version, Claim.plural] := by
    simpa [segments, or_left_comm, or_comm, or_assoc] using hsegment
  rcases hcases with rfl | hfixed
  · refine ⟨fun c hc => ?_, by decide +kernel⟩
    obtain ⟨hvisible, hmarks⟩ := Bool.and_eq_true_iff.mp (List.all_eq_true.mp hgroup c hc)
    exact .of_not_mem_marks hvisible (by simpa using hmarks)
  · have hlabels : ∀ fixed ∈ ["apis", Claim.version, Claim.plural], IsDnsLabel fixed := by
      decide
    exact .of_dnsLabel (hlabels segment hfixed)

theorem plain_claim
    {name : String}
    (h : PlainSegment name) :
    ∀ segment ∈ (claim name).segments, PlainSegment segment := by
  intro segment hsegment
  have hcases : segment = name ∨ segment ∈ claims.segments := by
    simpa [segments, or_left_comm, or_comm, or_assoc] using hsegment
  rcases hcases with rfl | hfixed
  · exact h
  · exact plain_claims segment hfixed

end Route

end Cluster
end ServingAdmin
