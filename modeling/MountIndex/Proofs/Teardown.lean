import Mathlib.Data.List.Nodup
import MountIndex.Proofs.Entries
import MountIndex.Resolver.Teardown

/-!
# What a teardown takes

Finalizing a record takes with it every record that depends on it, directly or through
others: the records whose parent it is, and for an overlay the records on its device.
`Teardown records first` is that set, the least one that holds `first` and is closed under
dependence. The search in `dependents` reaches exactly its mount IDs, whatever the parent
links look like: cycles, records that are their own parent and shared devices included.
-/

namespace MountIndex

/-- `c` depends on `p`: `p` is its parent, or `p` is an overlay on `c`'s device. -/
def Record.DependsOn (c p : Record) : Prop :=
  c.mount.parent = p.mount.id ∨ (p.mount.isOverlay = true ∧ c.mount.device = p.mount.device)

/-- The records among `records` that go when `first` is finalized. -/
inductive Teardown (records : List Record) (first : Record) : Record → Prop
  | self : Teardown records first first
  | dep {p c : Record} : Teardown records first p → c ∈ records → c.DependsOn p →
      Teardown records first c

theorem Teardown.mem {records : List Record} {first c : Record} (hf : first ∈ records)
    (h : Teardown records first c) : c ∈ records := by
  cases h with
  | self => exact hf
  | dep _ hc _ => exact hc

theorem Teardown.mono {A B : List Record} {first c : Record} (hsub : ∀ x ∈ A, x ∈ B)
    (h : Teardown A first c) : Teardown B first c := by
  induction h with
  | self => exact .self
  | dep _ hc hdep ih => exact .dep ih (hsub _ hc) hdep

-- A teardown among `B` stays within `A` when the records of `B` outside `A` take all their
-- dependents with them: the path from `first` to `c` never leaves `A`.
theorem Teardown.restrict {A B : List Record} {first c : Record} (hsub : ∀ x ∈ A, x ∈ B)
    (hclosed : ∀ p x, p ∈ B → p ∉ A → x ∈ B → x.DependsOn p → x ∉ A)
    (hf : first ∈ A) (h : Teardown B first c) (hc : c ∈ A) : Teardown A first c := by
  induction h with
  | self => exact .self
  | @dep p x hp hxB hdep ih =>
    have hpA : p ∈ A := by
      by_contra hpA
      exact hclosed p x (hp.mem (hsub _ hf)) hpA hxB hdep hc
    exact .dep (ih hpA) hc hdep

namespace Resolver

theorem mem_directDependents {records : List Record} {p c : Record} :
    c ∈ directDependents records p ↔ c ∈ records ∧ c.DependsOn p := by
  simp [directDependents, Record.DependsOn]

/-- What each round of the search in `dependents` keeps: every ID seen belongs to the
teardown, the frontier does too, and a record seen but not on the frontier has all its
dependents seen already. -/
structure Search (records : List Record) (first : Record) (frontier : List Record)
    (seen : List Nat) : Prop where
  first_seen : first.mount.id ∈ seen
  sound : ∀ k ∈ seen, ∃ c, Teardown records first c ∧ c.mount.id = k
  onFrontier : ∀ f ∈ frontier, f ∈ records ∧ Teardown records first f
  closed : ∀ p ∈ records, p.mount.id ∈ seen →
    p ∈ frontier ∨ ∀ c ∈ records, c.DependsOn p → c.mount.id ∈ seen

/-- The number of records whose ID the search has not seen. -/
def unseen (records : List Record) (seen : List Nat) : Nat :=
  (records.filter fun c => c.mount.id ∉ seen).length

section Round

variable {records : List Record} {first : Record} {frontier : List Record} {seen : List Nat}

/-- The records one round finds: dependents of the frontier with an ID not seen yet. -/
def found (records frontier : List Record) (seen : List Nat) : List Record :=
  (frontier.flatMap (directDependents records)).filter fun c => !seen.contains c.mount.id

theorem mem_found {c : Record} :
    c ∈ found records frontier seen ↔
      (∃ f ∈ frontier, c ∈ records ∧ c.DependsOn f) ∧ c.mount.id ∉ seen := by
  simp [found, mem_directDependents]

theorem search_start (hnd : (records.map (·.mount.id)).Nodup) (hf : first ∈ records) :
    Search records first [first] [first.mount.id] where
  first_seen := List.mem_singleton_self _
  sound := by
    intro k hk
    exact ⟨first, .self, (List.mem_singleton.1 hk).symm⟩
  onFrontier := by
    intro f hf'
    rw [List.mem_singleton.1 hf']
    exact ⟨hf, .self⟩
  closed := by
    intro p hp hid
    left
    rw [List.mem_singleton]
    exact List.inj_on_of_nodup_map hnd hp hf (List.mem_singleton.1 hid)

-- A round that finds new IDs keeps the invariant, with the records of those IDs as frontier.
theorem search_step (hnd : (records.map (·.mount.id)).Nodup)
    (hs : Search records first frontier seen) :
    let ids := ((found records frontier seen).map (·.mount.id)).eraseDups
    Search records first (records.filter fun c => ids.contains c.mount.id) (seen ++ ids) := by
  intro ids
  have hids : ∀ k, k ∈ ids ↔ ∃ c ∈ found records frontier seen, c.mount.id = k := by
    intro k
    simp [ids]
  have hfound : ∀ c ∈ found records frontier seen, c ∈ records ∧ Teardown records first c := by
    intro c hc
    obtain ⟨⟨f, hf, hcr, hdep⟩, -⟩ := mem_found.1 hc
    exact ⟨hcr, .dep (hs.onFrontier f hf).2 hcr hdep⟩
  refine ⟨List.mem_append_left _ hs.first_seen, ?_, ?_, ?_⟩
  · intro k hk
    rcases List.mem_append.1 hk with hk | hk
    · exact hs.sound k hk
    · obtain ⟨c, hc, rfl⟩ := (hids k).1 hk
      exact ⟨c, (hfound c hc).2, rfl⟩
  · intro f hf
    simp only [List.mem_filter, List.contains_iff_mem] at hf
    obtain ⟨c, hc, hcid⟩ := (hids _).1 hf.2
    obtain ⟨hcr, hct⟩ := hfound c hc
    have hfc : f = c := List.inj_on_of_nodup_map hnd hf.1 hcr hcid.symm
    exact ⟨hf.1, hfc ▸ hct⟩
  · intro p hp hseen
    by_cases hnew : p.mount.id ∈ ids
    · left
      simp [hp, hnew]
    · right
      have hold : p.mount.id ∈ seen := by
        rcases List.mem_append.1 hseen with h | h
        · exact h
        · exact absurd h hnew
      intro c hc hdep
      rcases hs.closed p hp hold with hpf | hall
      · by_cases hcs : c.mount.id ∈ seen
        · exact List.mem_append_left _ hcs
        · have hcf : c ∈ found records frontier seen := mem_found.2 ⟨⟨p, hpf, hc, hdep⟩, hcs⟩
          exact List.mem_append_right _ ((hids _).2 ⟨c, hcf, rfl⟩)
      · exact List.mem_append_left _ (hall c hc hdep)

-- A round that finds nothing new ends the search: the IDs seen are closed under dependence.
theorem closed_of_found_nil (hs : Search records first frontier seen)
    (hnil : found records frontier seen = []) :
    ∀ p ∈ records, p.mount.id ∈ seen → ∀ c ∈ records, c.DependsOn p → c.mount.id ∈ seen := by
  intro p hp hseen c hc hdep
  rcases hs.closed p hp hseen with hpf | hall
  · by_contra hcs
    have hcf : c ∈ found records frontier seen := mem_found.2 ⟨⟨p, hpf, hc, hdep⟩, hcs⟩
    rw [hnil] at hcf
    exact List.not_mem_nil hcf
  · exact hall c hc hdep

-- Each round that finds a new ID leaves fewer records unseen: this bounds the rounds.
theorem unseen_lt (hne : found records frontier seen ≠ []) :
    unseen records (seen ++ ((found records frontier seen).map (·.mount.id)).eraseDups) <
      unseen records seen := by
  obtain ⟨c, hc⟩ := List.exists_mem_of_ne_nil _ hne
  obtain ⟨⟨-, -, hcr, -⟩, hcs⟩ := mem_found.1 hc
  unfold unseen
  have hsub : (records.filter fun d => d.mount.id ∉
        seen ++ ((found records frontier seen).map (·.mount.id)).eraseDups) =
      (records.filter fun d => d.mount.id ∉ seen).filter fun d => d.mount.id ∉
        seen ++ ((found records frontier seen).map (·.mount.id)).eraseDups := by
    rw [List.filter_filter]
    congr 1
    funext d
    by_cases h : d.mount.id ∈ seen <;> simp [h]
  rw [hsub]
  apply List.length_filter_lt_length_iff_exists.2
  refine ⟨c, List.mem_filter.2 ⟨hcr, by simpa using hcs⟩, ?_⟩
  simp only [List.mem_append, List.mem_eraseDups, List.mem_map, decide_eq_true_eq, not_or,
    not_and, not_exists]
  intro _ hnone
  exact hnone c hc rfl

-- Once the IDs seen are closed under dependence, they cover the whole teardown.
theorem seen_of_teardown (hf : first ∈ records) (hs : Search records first frontier seen)
    (hclosed : ∀ p ∈ records, p.mount.id ∈ seen → ∀ c ∈ records, c.DependsOn p → c.mount.id ∈ seen)
    {c : Record} (h : Teardown records first c) : c.mount.id ∈ seen := by
  induction h with
  | self => exact hs.first_seen
  | dep hp hc hdep ih => exact hclosed _ (hp.mem hf) ih _ hc hdep

theorem dependents_go_succ (fuel : Nat) :
    dependents.go records (fuel + 1) frontier seen =
      if (((found records frontier seen).map (·.mount.id)).eraseDups).isEmpty then seen
      else dependents.go records fuel
        (records.filter fun c => (((found records frontier seen).map (·.mount.id)).eraseDups).contains c.mount.id)
        (seen ++ ((found records frontier seen).map (·.mount.id)).eraseDups) := rfl

theorem isEmpty_found_ids :
    (((found records frontier seen).map (·.mount.id)).eraseDups).isEmpty ↔
      found records frontier seen = [] := by
  rw [List.isEmpty_iff, List.eq_nil_iff_forall_not_mem, List.eq_nil_iff_forall_not_mem]
  simp

-- The search reaches exactly the teardown, given a round for each record it may still reach.
theorem mem_dependents_go (hnd : (records.map (·.mount.id)).Nodup) (hf : first ∈ records)
    {fuel : Nat} (hs : Search records first frontier seen) (hfuel : unseen records seen < fuel)
    (k : Nat) :
    k ∈ dependents.go records fuel frontier seen ↔ ∃ c, Teardown records first c ∧ c.mount.id = k := by
  induction fuel generalizing frontier seen with
  | zero => omega
  | succ fuel ih =>
    rw [dependents_go_succ]
    by_cases hnil : found records frontier seen = []
    · rw [if_pos (isEmpty_found_ids.2 hnil)]
      refine ⟨hs.sound k, ?_⟩
      rintro ⟨c, hc, rfl⟩
      exact seen_of_teardown hf hs (closed_of_found_nil hs hnil) hc
    · rw [if_neg (fun h => hnil (isEmpty_found_ids.1 (by simpa using h)))]
      have hlt := unseen_lt hnil
      exact ih (search_step hnd hs) (by omega)

end Round

-- `dependents` gives the mount IDs of exactly the records finalized with `first`.
theorem mem_dependents {records : List Record} {first : Record}
    (hnd : (records.map (·.mount.id)).Nodup) (hf : first ∈ records) (k : Nat) :
    k ∈ dependents records first ↔ ∃ c, Teardown records first c ∧ c.mount.id = k := by
  have hle : unseen records [first.mount.id] ≤ records.length := List.length_filter_le _ _
  exact mem_dependents_go hnd hf (search_start hnd hf) (by omega) k

/-! ## Retiring a record -/

/-- One step of the clean-up of the redemption cache when records go: the entry of an ID is
dropped if it names the record the store holds under that ID. -/
def dropRedeemed (s : Store Record) (c : Lru Nat Handle) (id : Nat) : Lru Nat Handle :=
  match s.get? id with
  | some g => if c.peek? id == some g.handle then (c.erase id).1 else c
  | none => c

/-- Every redemption entry names the record the store holds under its key. -/
def Filed (r : Resolver) : Prop :=
  ∀ e ∈ r.redemption.entries, ∃ g, r.mounts.get? e.1 = some g ∧ e.2 = g.handle

end Resolver

end MountIndex
