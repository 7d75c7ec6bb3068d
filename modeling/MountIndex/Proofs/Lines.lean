import Mathlib.Data.String.Basic
import MountIndex.Table.Parse

/-!
# Splitting a mount table into lines

`lines` splits a text at each line feed with the legacy `String.splitOn`, which walks byte
positions. For a one-character separator that walk is the split of the text's characters at
that character (`Text.splitOn_singleton`); for `"\n"` it is the split at line feeds
(`splitOn_newline`). So a text whose lines each end in a line feed splits into those lines,
each less one carriage return at its end (`lines_of_split`), and `readLines` reads them in
order, skipping the blank ones (`readLines_blank`, `readLines_entry`).
-/

namespace MountIndex.Text

open String in
-- The walk of `splitOnAux` over a text split as `l ++ m ++ r`: the parts before `l` are done,
-- `m` is the part being read and `r` what is left. The induction is on `r`; the separator closes
-- the part being read, any other character extends it.
theorem splitOnAux_single (c : Char) (r : List Char) : ∀ (l m : List Char) (acc : List String),
    String.splitOnAux (ofList (l ++ m ++ r)) (String.singleton c) ⟨utf8Len l⟩
        ⟨utf8Len l + utf8Len m⟩ 0 acc =
      acc.reverse ++ (List.splitOnPPrepend (· == c) r m.reverse).map ofList := by
  have hsep : Pos.Raw.get (String.singleton c) 0 = c := by
    rw [String.singleton_eq_ofList]
    exact get_of_valid [] [c]
  have hj : Pos.Raw.next (String.singleton c) 0 = ⟨c.utf8Size⟩ := by
    have h := next_of_valid [] c []
    rw [List.nil_append, utf8Len_nil, Nat.zero_add] at h
    rw [String.singleton_eq_ofList]
    exact h
  have hend : Pos.Raw.atEnd (String.singleton c) ⟨c.utf8Size⟩ = true := by
    rw [String.singleton_eq_ofList, atEnd_iff, rawEndPos_ofList]
    simp
  induction r with
  | nil =>
    intro l m acc
    rw [String.splitOnAux, if_pos (by simp only [List.append_nil, atEnd_iff, rawEndPos_ofList,
      utf8Len_append, Pos.Raw.mk_le_mk, Nat.le_refl])]
    simpa using extract_of_valid l m []
  | cons x r ih =>
    intro l m acc
    rw [String.splitOnAux, if_neg (by
      simp only [atEnd_iff, rawEndPos_ofList, utf8Len_append, utf8Len_cons, Pos.Raw.mk_le_mk]
      have := x.utf8Size_pos
      omega)]
    have hget : Pos.Raw.get (ofList (l ++ m ++ x :: r)) ⟨utf8Len l + utf8Len m⟩ = x := by
      simpa using get_of_valid (l ++ m) (x :: r)
    have hnext : Pos.Raw.next (ofList (l ++ m ++ x :: r)) ⟨utf8Len l + utf8Len m⟩ =
        ⟨utf8Len l + utf8Len m + x.utf8Size⟩ := by
      simpa using next_of_valid (l ++ m) x r
    rw [hget, hsep]
    by_cases hx : x = c
    · -- the separator: the part read so far is closed and a new one starts after it
      subst hx
      rw [if_pos (beq_self_eq_true _)]
      dsimp only
      rw [hnext, hj, if_pos hend]
      have hm : Pos.Raw.unoffsetBy ⟨utf8Len l + utf8Len m + x.utf8Size⟩ ⟨x.utf8Size⟩ =
          ⟨utf8Len l + utf8Len m⟩ := by
        simp [Pos.Raw.unoffsetBy]
      rw [hm]
      have h := ih (l ++ m ++ [x]) [] (ofList m :: acc)
      simp only [List.append_nil, List.append_assoc, List.singleton_append, utf8Len_append,
        utf8Len_cons, utf8Len_nil, Nat.add_zero, Nat.zero_add, List.reverse_nil,
        List.reverse_cons] at h
      rw [extract_of_valid l m (x :: r), List.append_assoc, Nat.add_assoc, h,
        List.splitOnPPrepend_cons_eq_if, if_pos (beq_self_eq_true _), List.reverse_reverse,
        List.map_cons]
      rfl
    · -- any other character extends the part being read
      rw [if_neg (by simpa using hx)]
      have hz : Pos.Raw.unoffsetBy ⟨utf8Len l + utf8Len m⟩ 0 = ⟨utf8Len l + utf8Len m⟩ := by
        simp [Pos.Raw.unoffsetBy]
      rw [hz, hnext]
      have h := ih l (m ++ [x]) acc
      simp only [List.append_assoc, List.singleton_append, utf8Len_append, utf8Len_cons,
        utf8Len_nil, Nat.zero_add, List.reverse_append, List.reverse_cons, List.reverse_nil,
        List.nil_append] at h
      rw [List.append_assoc, Nat.add_assoc, h, List.splitOnPPrepend_cons_eq_if,
        if_neg (by simpa using hx)]

theorem splitOn_singleton (s : String) (c : Char) :
    s.splitOn (String.singleton c) = (s.toList.splitOn c).map String.ofList := by
  rw [String.splitOn, if_neg (by simp [String.singleton_ne_empty])]
  have h := splitOnAux_single c s.toList [] [] []
  simp only [List.nil_append, String.ofList_toList, String.utf8Len_nil, Nat.add_zero,
    List.reverse_nil] at h
  exact h

end MountIndex.Text

namespace MountIndex.Table

theorem splitOn_newline (s : String) :
    s.splitOn "\n" = (s.toList.splitOnP (· == '\n')).map String.ofList :=
  Text.splitOn_singleton s '\n'

/-- A line less one carriage return at its end, as `lines` leaves it. -/
def dropCR (r : List Char) : List Char := if r.getLast? = some '\r' then r.dropLast else r

theorem endsWith_cr_ofList (r : List Char) :
    (String.ofList r).endsWith "\r" = true ↔ r.getLast? = some '\r' := by
  rw [show (String.ofList r).endsWith "\r" = (String.ofList r).toSlice.endsWith "\r" from rfl,
    String.Slice.endsWith_string_iff, String.copy_toSlice]
  simp only [String.toList_ofList]
  exact List.singleton_suffix_iff_getLast?_eq_some

-- The carriage return `lines` strips from a line.
theorem strip_ofList (r : List Char) :
    (if (String.ofList r).endsWith "\r" then ((String.ofList r).dropEnd 1).toString
      else String.ofList r) = String.ofList (dropCR r) := by
  unfold dropCR
  by_cases h : r.getLast? = some '\r'
  · rw [if_pos ((endsWith_cr_ofList r).2 h), if_pos h]
    apply String.toList_injective
    rw [String.toList_ofList, show ((String.ofList r).dropEnd 1).toString =
      ((String.ofList r).dropEnd 1).copy from rfl, String.toList_copy_dropEnd,
      String.toList_ofList, List.dropLast_eq_take]
  · rw [if_neg (fun h' => h ((endsWith_cr_ofList r).1 h')), if_neg h]

-- A text split at its line feeds into `rows` and an empty last part: its lines are the rows,
-- each less one carriage return at its end.
theorem lines_of_split {text : String} {rows : List (List Char)}
    (h : text.toList.splitOnP (· == '\n') = rows ++ [[]]) :
    lines text = rows.map fun r => String.ofList (dropCR r) := by
  unfold lines
  rw [splitOn_newline, h]
  dsimp only
  rw [List.map_append, List.getLast?_append, List.map_singleton,
    List.getLast?_singleton, List.dropLast_append_of_ne_nil (by simp), List.dropLast_singleton,
    List.append_nil]
  simp only [Option.some_or, String.ofList_nil, List.map_map]
  rw [if_pos (by decide)]
  exact List.map_congr_left fun r _ => strip_ofList r

-- A line without line feeds, closed by one, is the first part of the split.
theorem splitOnP_line {row rest : List Char} (h : ∀ c ∈ row, c ≠ '\n') :
    (row ++ '\n' :: rest).splitOnP (· == '\n') = row :: rest.splitOnP (· == '\n') := by
  rw [List.splitOnP_append_cons (p := (· == '\n')) row rest (beq_self_eq_true _),
    List.splitOnP_eq_singleton fun c hc => by simpa using h c hc]
  rfl

theorem readLines_blank {n : Nat} {l : String} {rest : List String}
    (h : Text.isBlankText l = true) : readLines n (l :: rest) = readLines (n + 1) rest := by
  rw [readLines, if_pos h]
  cases readLines (n + 1) rest <;> rfl

theorem readLines_entry {n : Nat} {l : String} {rest : List String} {e : Entry}
    (h : Text.isBlankText l = false) (he : line l.toList = .ok e) :
    readLines n (l :: rest) = (readLines (n + 1) rest).map (e :: ·) := by
  rw [readLines, if_neg (by simp [h]), he]
  cases readLines (n + 1) rest <;> rfl

end MountIndex.Table
