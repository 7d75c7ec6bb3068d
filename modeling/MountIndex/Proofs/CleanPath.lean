import Mathlib.Data.List.Induction
import MountIndex.Proofs.Lines
import MountIndex.Proofs.Walk

/-!
# Cleaning paths

`clean` splits a path at its slashes and keeps its parts one by one (`push`): it skips empty
and `.` parts, lets a `..` take back the part before it, and keeps a `..` with nothing to take
back only in a relative path. Main statement: `cleaning_laws`.

The kept parts are always *clean segments* (`CleanSegments`): none empty, `.` or holding a
slash, the `..` ones a leading run, and none in a rooted path. Cleaning writes such segments
in a form (`write`) whose split gives them back, so cleaning reads a path only through whether
it is rooted and its parts, and a cleaned path has the same two. Hence cleaning is idempotent,
it may clean the left side of `x/y` first, and the left fold of `join` that the mount-path walk
performs equals one cleaning of all the segments joined with slashes.
-/

namespace MountIndex.Path

/-! ## Splitting at slashes -/

theorem splitOn_slash (p : String) : p.splitOn "/" = (p.toList.splitOn '/').map String.ofList :=
  Text.splitOn_singleton p '/'

theorem parts_eq (p : String) :
    parts p =
      (((p.toList.splitOn '/').map String.ofList).foldl (push (p.startsWith "/")) []).reverse := by
  rw [parts, splitOn_slash]

theorem not_mem_of_mem_splitOn {c : Char} (l : List Char) :
    ∀ {part : List Char}, part ∈ l.splitOn c → c ∉ part := by
  induction l with
  | nil =>
    intro part h
    simp_all
  | cons x l ih =>
    intro part h
    rw [List.splitOn_cons_eq_if_modifyHead] at h
    split at h
    · rcases List.mem_cons.1 h with rfl | h
      · simp
      · exact ih h
    · rename_i hx
      -- `x` extends the first part of the rest
      obtain ⟨first, rest, hfr⟩ := List.exists_cons_of_ne_nil (List.splitOn_ne_nil c l)
      rw [hfr, List.modifyHead_cons] at h
      rcases List.mem_cons.1 h with rfl | h
      · simp only [List.mem_cons, not_or]
        exact ⟨fun hc => hx (by simp [hc]), ih (hfr ▸ List.mem_cons_self)⟩
      · exact ih (hfr ▸ List.mem_cons_of_mem first h)

theorem no_slash_of_mem_split {p part : String}
    (h : part ∈ (p.toList.splitOn '/').map String.ofList) :
    '/' ∉ part.toList := by
  obtain ⟨l, hl, rfl⟩ := List.mem_map.1 h
  rw [String.toList_ofList]
  exact not_mem_of_mem_splitOn _ hl

theorem startsWith_slash_iff (p : String) :
    p.startsWith "/" = true ↔ p.toList.head? = some '/' := by
  rw [String.startsWith_string_iff]
  cases p.toList <;> simp [eq_comm]

/-! ## Clean segments -/

/-- The segments of a cleaned path, in order: none is empty, `.` or holds a `/`; a `..` has only
`..` before it, and a rooted path has none. -/
structure CleanSegments (rooted : Bool) (segs : List String) : Prop where
  proper : ∀ s ∈ segs, s ≠ "" ∧ s ≠ "." ∧ '/' ∉ s.toList
  ups_lead : segs.Pairwise fun a b => b = ".." → a = ".."
  rooted_no_ups : rooted = true → ".." ∉ segs

namespace CleanSegments

variable {rooted : Bool} {segs : List String} {s : String}

theorem nil (rooted : Bool) : CleanSegments rooted [] := ⟨by simp, .nil, by simp⟩

theorem of_append_singleton (h : CleanSegments rooted (segs ++ [s])) :
    CleanSegments rooted segs :=
  ⟨fun t ht => h.proper t (List.mem_append_left _ ht), (List.pairwise_append.1 h.ups_lead).1,
    fun hr hu => h.rooted_no_ups hr (List.mem_append_left _ hu)⟩

-- Every segment before a last `..` is `..`.
theorem up_run (h : CleanSegments rooted (segs ++ [".."])) : ∀ t ∈ segs, t = ".." :=
  fun t ht => (List.pairwise_append.1 h.ups_lead).2.2 t ht _ List.mem_cons_self rfl

-- A segment other than `..` may follow any clean segments.
theorem append_name (h : CleanSegments rooted segs)
    (hs : s ≠ "" ∧ s ≠ "." ∧ '/' ∉ s.toList) (hup : s ≠ "..") :
    CleanSegments rooted (segs ++ [s]) := by
  refine ⟨fun t ht => ?_,
    List.pairwise_append.2 ⟨h.ups_lead, List.pairwise_singleton _ _, ?_⟩, ?_⟩
  · rcases List.mem_append.1 ht with ht | ht
    · exact h.proper t ht
    · rw [List.mem_singleton.1 ht]
      exact hs
  · intro a _ b hb hb'
    rw [List.mem_singleton.1 hb] at hb'
    exact absurd hb' hup
  · intro hr hu
    rcases List.mem_append.1 hu with hu | hu
    · exact h.rooted_no_ups hr hu
    · exact hup (List.mem_singleton.1 hu).symm

-- A `..` may follow clean segments of a relative path that are all `..`.
theorem append_up (h : CleanSegments false segs) (hall : ∀ t ∈ segs, t = "..") :
    CleanSegments false (segs ++ [".."]) := by
  refine ⟨fun t ht => ?_,
    List.pairwise_append.2 ⟨h.ups_lead, List.pairwise_singleton _ _, ?_⟩, ?_⟩
  · rcases List.mem_append.1 ht with ht | ht
    · exact h.proper t ht
    · rw [List.mem_singleton.1 ht]
      decide
  · intro a ha _ _ _
    exact hall a ha
  · intro hr
    cases hr

end CleanSegments

@[simp] theorem push_empty (rooted : Bool) (kept : List String) : push rooted kept "" = kept := by
  simp [push]

@[simp] theorem push_dot (rooted : Bool) (kept : List String) : push rooted kept "." = kept := by
  simp [push]

-- One step of cleaning keeps the parts kept so far clean; they are kept last first.
theorem cleanSegments_push {rooted : Bool} {kept : List String} {part : String}
    (h : CleanSegments rooted kept.reverse) (hp : '/' ∉ part.toList) :
    CleanSegments rooted (push rooted kept part).reverse := by
  unfold push
  by_cases hskip : part = "" ∨ part = "."
  · rw [if_pos hskip]
    exact h
  rw [if_neg hskip]
  by_cases hup : part = ".."
  · rw [if_pos hup]
    cases kept with
    | nil =>
      cases rooted with
      | true => exact CleanSegments.nil true
      | false => exact (CleanSegments.nil false).append_up (by simp)
    | cons last rest =>
      rw [List.reverse_cons] at h
      dsimp only
      by_cases hlast : last = ".."
      · subst hlast
        cases rooted with
        | true => simpa using h
        | false =>
          have hall : ∀ t ∈ rest.reverse ++ [".."], t = ".." := by
            intro t ht
            rcases List.mem_append.1 ht with ht | ht
            · exact h.up_run t ht
            · exact List.mem_singleton.1 ht
          simpa using h.append_up hall
      · rw [if_pos hlast]
        exact h.of_append_singleton
  · rw [if_neg hup, List.reverse_cons]
    simp only [not_or] at hskip
    exact h.append_name ⟨hskip.1, hskip.2, hp⟩ hup

-- The induction is on the parts still to come, from any clean kept parts.
theorem cleanSegments_foldl_push {rooted : Bool} (pieces : List String) :
    ∀ {kept : List String}, (∀ part ∈ pieces, '/' ∉ part.toList) →
      CleanSegments rooted kept.reverse →
        CleanSegments rooted (pieces.foldl (push rooted) kept).reverse := by
  induction pieces with
  | nil => exact fun _ h => h
  | cons part rest ih =>
    intro kept hp h
    exact ih (fun q hq => hp q (List.mem_cons_of_mem part hq))
      (cleanSegments_push h (hp part List.mem_cons_self))

theorem cleanSegments_parts (p : String) : CleanSegments (p.startsWith "/") (parts p) := by
  rw [parts_eq]
  exact cleanSegments_foldl_push _ (fun _ h => no_slash_of_mem_split h) (CleanSegments.nil _)

-- Cleaning clean segments again keeps them all: none is skipped, and a `..` comes only after
-- `..` in a relative path, where it is kept.
theorem foldl_push_of_clean {rooted : Bool} {segs : List String}
    (h : CleanSegments rooted segs) :
    segs.foldl (push rooted) [] = segs.reverse := by
  induction segs using List.reverseRecOn with
  | nil => rfl
  | append_singleton segs s ih =>
    rw [List.foldl_append, ih h.of_append_singleton, List.foldl_cons, List.foldl_nil,
      List.reverse_append, List.reverse_singleton, List.singleton_append]
    obtain ⟨hne, hdot, -⟩ := h.proper s (by simp)
    unfold push
    rw [if_neg (by simp [hne, hdot])]
    by_cases hup : s = ".."
    · subst hup
      rw [if_pos rfl]
      have hall := h.up_run
      have hrel : rooted = false := by
        cases rooted with
        | false => rfl
        | true => exact absurd (by simp) (h.rooted_no_ups rfl)
      subst hrel
      cases hrev : segs.reverse with
      | nil => rfl
      | cons last rest =>
        have hlast : last = ".." := hall last (List.mem_reverse.1 (hrev ▸ List.mem_cons_self))
        subst hlast
        rfl
    · rw [if_neg hup]

/-! ## The written form -/

/-- The text of a path from whether it is rooted and its segments, as cleaning writes it. -/
def write (rooted : Bool) (segs : List String) : String :=
  let body := String.intercalate "/" segs
  if rooted then "/" ++ body
  else if body.isEmpty then "."
  else body

theorem clean_eq_write (p : String) : clean p = write (p.startsWith "/") (parts p) := rfl

theorem intercalate_eq_empty_iff {segs : List String} (h : ∀ s ∈ segs, s ≠ "") :
    String.intercalate "/" segs = "" ↔ segs = [] := by
  cases segs with
  | nil => simp
  | cons s rest =>
    cases rest with
    | nil => simpa using h s (by simp)
    | cons t rest => simp [String.append_eq_empty_iff, h s (by simp)]

-- A relative path with segments is written as its segments joined by slashes.
theorem write_false_of_ne_nil {segs : List String} (h : CleanSegments false segs)
    (hne : segs ≠ []) : write false segs = String.intercalate "/" segs := by
  have hbody : String.intercalate "/" segs ≠ "" :=
    (intercalate_eq_empty_iff fun t ht => (h.proper t ht).1).not.2 hne
  unfold write
  simp only [String.isEmpty_eq_false_iff.2 hbody, Bool.false_eq_true, if_false]

theorem split_intercalate {segs : List String} (h : ∀ s ∈ segs, '/' ∉ s.toList)
    (hne : segs ≠ []) :
    (String.intercalate "/" segs).toList.splitOn '/' = segs.map String.toList := by
  rw [String.toList_intercalate]
  exact List.splitOn_intercalate '/' (by simpa using h) (by simpa using hne)

-- Cleaning the segments written with slashes between them finds them again.
theorem foldl_push_write_body {rooted : Bool} {segs : List String}
    (h : CleanSegments rooted segs) :
    (((String.intercalate "/" segs).toList.splitOn '/').map String.ofList).foldl (push rooted) [] =
      segs.reverse := by
  by_cases hne : segs = []
  · subst hne
    simp
  · rw [split_intercalate (fun s hs => (h.proper s hs).2.2) hne, List.map_map]
    simp only [Function.comp_def, String.ofList_toList, List.map_id']
    exact foldl_push_of_clean h

theorem rooted_write {rooted : Bool} {segs : List String} (h : CleanSegments rooted segs) :
    (write rooted segs).startsWith "/" = rooted := by
  cases rooted with
  | true => simp [write]
  | false =>
    cases segs with
    | nil => simp [write]
    | cons s rest =>
      obtain ⟨hs, -, hslash⟩ := h.proper s List.mem_cons_self
      -- the written path starts with its first segment, which is not empty and holds no slash
      obtain ⟨c, cs, hc⟩ := List.exists_cons_of_ne_nil (String.toList_eq_nil_iff.not.2 hs)
      have hhead : (String.intercalate "/" (s :: rest)).toList.head? = some c := by
        cases rest <;> simp [hc]
      have hc' : c ≠ '/' := fun hcs => hslash (by simp [hc, hcs])
      rw [write_false_of_ne_nil h (List.cons_ne_nil s rest), ← Bool.not_eq_true,
        startsWith_slash_iff, hhead]
      simpa using hc'

theorem parts_write {rooted : Bool} {segs : List String} (h : CleanSegments rooted segs) :
    parts (write rooted segs) = segs := by
  rw [parts_eq, rooted_write h]
  cases rooted with
  | true =>
    -- the leading slash splits off an empty part, which cleaning skips
    unfold write
    dsimp only
    rw [if_pos rfl, String.toList_append, show "/".toList = ['/'] from rfl, List.singleton_append,
      List.splitOn_cons_eq_if_modifyHead, if_pos (beq_self_eq_true _), List.map_cons,
      List.foldl_cons, String.ofList_nil, push_empty, foldl_push_write_body h, List.reverse_reverse]
  | false =>
    by_cases hne : segs = []
    · -- the empty relative path is written `.`, which cleaning skips
      subst hne
      have hdot : ['.'].splitOn '/' = [['.']] := List.splitOn_eq_singleton (by decide)
      simp [write, hdot]
    · rw [write_false_of_ne_nil h hne, foldl_push_write_body h, List.reverse_reverse]

/-- A path in clean form: `/`, `.`, or clean segments joined by single slashes, after a leading
`/` when it is rooted. -/
def IsClean (p : String) : Prop :=
  p = "/" ∨ p = "." ∨ ∃ segs, segs ≠ [] ∧
    (CleanSegments true segs ∧ p = "/" ++ String.intercalate "/" segs ∨
      CleanSegments false segs ∧ p = String.intercalate "/" segs)

theorem isClean_write {rooted : Bool} {segs : List String} (h : CleanSegments rooted segs) :
    IsClean (write rooted segs) := by
  unfold IsClean
  by_cases hne : segs = []
  · subst hne
    cases rooted <;> simp [write]
  · cases rooted with
    | true => exact .inr (.inr ⟨segs, hne, .inl ⟨h, rfl⟩⟩)
    | false =>
      rw [write_false_of_ne_nil h hne]
      exact .inr (.inr ⟨segs, hne, .inr ⟨h, rfl⟩⟩)

/-! ## Cleaning as a normal form -/

theorem startsWith_clean (p : String) : (clean p).startsWith "/" = p.startsWith "/" := by
  rw [clean_eq_write]
  exact rooted_write (cleanSegments_parts p)

theorem parts_clean (p : String) : parts (clean p) = parts p := by
  rw [clean_eq_write]
  exact parts_write (cleanSegments_parts p)

theorem isClean_clean (p : String) : IsClean (clean p) := by
  rw [clean_eq_write]
  exact isClean_write (cleanSegments_parts p)

-- Cleaning reads a path only through whether it is rooted and its parts, and keeps both.
theorem clean_clean (p : String) : clean (clean p) = clean p := by
  rw [clean_eq_write (clean p), startsWith_clean, parts_clean, ← clean_eq_write]

/-! ## Joining -/

theorem startsWith_append_slash {x : String} (hx : x ≠ "") (y : String) :
    (x ++ "/" ++ y).startsWith "/" = x.startsWith "/" := by
  obtain ⟨c, cs, hc⟩ := List.exists_cons_of_ne_nil (String.toList_eq_nil_iff.not.2 hx)
  apply Bool.eq_iff_iff.2
  rw [startsWith_slash_iff, startsWith_slash_iff]
  simp [hc]

-- The parts of `x/y` are the parts of `y` cleaned on top of those of `x`.
theorem parts_append_slash {x : String} (hx : x ≠ "") (y : String) :
    parts (x ++ "/" ++ y) =
      (((y.toList.splitOn '/').map String.ofList).foldl (push (x.startsWith "/"))
        (parts x).reverse).reverse := by
  rw [parts_eq, startsWith_append_slash hx, parts_eq x, List.reverse_reverse,
    String.toList_append, String.toList_append, show "/".toList = ['/'] from rfl,
    List.append_assoc, List.singleton_append, List.splitOn_append_cons_self, List.map_append,
    List.foldl_append]

theorem clean_append_slash {x : String} (hx : x ≠ "") (y : String) :
    clean (clean x ++ "/" ++ y) = clean (x ++ "/" ++ y) := by
  have hc : clean x ≠ "" := clean_ne_empty x
  rw [clean_eq_write, clean_eq_write (x ++ "/" ++ y), startsWith_append_slash hc,
    startsWith_append_slash hx, startsWith_clean, parts_append_slash hc, parts_append_slash hx,
    startsWith_clean, parts_clean]

theorem join_eq_clean {a : String} (ha : a ≠ "") (b : String) :
    join a b = clean (a ++ "/" ++ b) := by
  unfold join
  rw [if_neg (by simpa using ha)]
  split
  · -- an empty child: the trailing slash splits off an empty part, which cleaning skips
    rename_i hb
    obtain rfl : b = "" := String.isEmpty_iff.1 hb
    rw [clean_eq_write, clean_eq_write (a ++ "/" ++ ""), startsWith_append_slash ha,
      parts_append_slash ha]
    simp
  · rfl

-- Without a parent a join is no cleaning: two empty sides give the empty path, which no
-- cleaning gives.
example : join "" "" = "" := rfl

-- Each join cleans the path so far with one more segment; by `clean_append_slash` the earlier
-- cleanings change nothing.
theorem foldl_join {base : String} (hb : base ≠ "") {segs : List String} (hs : segs ≠ []) :
    segs.foldl join base = clean (String.intercalate "/" (base :: segs)) := by
  induction segs generalizing base with
  | nil => exact absurd rfl hs
  | cons s rest ih =>
    rw [List.foldl_cons, join_eq_clean hb]
    by_cases hr : rest = []
    · subst hr
      simp
    · have hx : base ++ "/" ++ s ≠ "" := by simp [String.append_eq_empty_iff, hb]
      rw [ih (clean_ne_empty _) hr, String.intercalate_cons_of_ne_nil hr, clean_append_slash hx,
        String.intercalate_cons_of_ne_nil (List.cons_ne_nil s rest),
        String.intercalate_cons_of_ne_nil hr]
      simp [String.append_assoc]

/-- The laws of path cleaning. Cleaning is idempotent, keeps whether a path is rooted, never
gives the empty path, and always gives a path in clean form. A path may have its left side
cleaned first: so a join with a non-empty parent is one cleaning of both sides with a slash
between them, the left fold of joins that the mount-path walk performs from a non-empty base is
one cleaning of all the segments, and resuming the fold from any path it remembered on the way
gives the same final path. -/
theorem cleaning_laws :
    (∀ p, clean (clean p) = clean p) ∧
      (∀ p, (clean p).startsWith "/" = p.startsWith "/" ∧ clean p ≠ "") ∧
      (∀ p, IsClean (clean p)) ∧
      (∀ x y, x ≠ "" → clean (clean x ++ "/" ++ y) = clean (x ++ "/" ++ y)) ∧
      (∀ a b, a ≠ "" → join a b = clean (a ++ "/" ++ b)) ∧
      (∀ base segs, base ≠ "" → segs ≠ [] →
        segs.foldl join base = clean (String.intercalate "/" (base :: segs))) ∧
      ∀ base pre post, base ≠ "" → pre ≠ [] →
        post.foldl join (pre.foldl join base) = clean (String.intercalate "/" (base :: pre ++ post)) := by
  refine ⟨clean_clean, fun p => ⟨startsWith_clean p, clean_ne_empty p⟩, isClean_clean,
    fun _ y hx => clean_append_slash hx y, fun _ b ha => join_eq_clean ha b,
    fun _ _ hb hs => foldl_join hb hs, fun base pre post hb hpre => ?_⟩
  rw [← List.foldl_append]
  exact foldl_join hb (by simp [hpre])

theorem cleaning_laws_walk :
    "/var/lib" ≠ "" ∧ ["docker", "overlay2"] ≠ [] ∧
      ["docker", "overlay2"].foldl join "/var/lib" =
        clean (String.intercalate "/" ["/var/lib", "docker", "overlay2"]) :=
  ⟨by decide, by simp, cleaning_laws.2.2.2.2.2.1 _ _ (by decide) (by simp)⟩

end MountIndex.Path
