/-!
# Similar words

When a word on the command line is not known, the words that look like it are offered
instead. Likeness is the Jaro similarity: characters of one word match equal characters of
the other that are not yet matched and lie within half the longer length (less one) of the
same place; with `m` matches and `t` half the number of matched characters that come in a
different order, the similarity is `(m/|a| + m/|b| + (m-t)/m) / 3`. A word is offered when
its similarity is above 0.7, the most similar one last.
-/

namespace MountIndex.Cli

/-- The first index in `[lo, hi)` where `b` holds `c` and that is not yet taken. -/
def matchAt (b : List Char) (taken : List Bool) (c : Char) (lo hi : Nat) : Option Nat :=
  (List.range hi).find? fun j => lo ≤ j && b.getD j ' ' == c && !taken.getD j true

/-- Marks the characters of `a` and `b` that match. -/
def matchFlags (a b : List Char) : List Bool × List Bool :=
  let range := max a.length b.length / 2 - 1
  (List.range a.length).foldl (fun (af, bf) i =>
    let lo := i - range
    let hi := min b.length (i + range + 1)
    match matchAt b bf (a.getD i ' ') lo hi with
    | some j => (af.set i true, bf.set j true)
    | none => (af, bf))
    (List.replicate a.length false, List.replicate b.length false)

/-- The characters of a word that are marked. -/
def marked (w : List Char) (flags : List Bool) : List Char :=
  (w.zip flags).filterMap fun (c, f) => if f then some c else none

/-- The Jaro similarity of two words, computed in binary64 as the reference does. -/
def jaro (a b : String) : Float :=
  let a := a.toList
  let b := b.toList
  if a.isEmpty && b.isEmpty then 1.0
  else if a.isEmpty || b.isEmpty then 0.0
  else
    let (af, bf) := matchFlags a b
    let ma := marked a af
    let m := ma.length
    let t := ((ma.zip (marked b bf)).filter fun (x, y) => x != y).length / 2
    if m = 0 then 0.0
    else (m.toFloat / a.length.toFloat + m.toFloat / b.length.toFloat +
      (m - t).toFloat / m.toFloat) / 3.0

/-- The words similar enough to `w`, least similar first; among equally similar words the
given order is kept. -/
def similar (w : String) (words : List String) : List String :=
  let scored := words.filterMap fun x =>
    let c := jaro w x
    if c > 0.7 then some (c, x) else none
  (scored.mergeSort fun p q => p.1 ≤ q.1).map (·.2)

/-- The most similar word, if any is similar enough. -/
def mostSimilar (w : String) (words : List String) : Option String :=
  (similar w words).getLast?

end MountIndex.Cli
