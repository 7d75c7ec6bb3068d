import MountIndex.Proofs.Lifecycle

/-!
# Draining the delete queue

`dequeue now` takes the delete requests due at `now` off the front of the queue. For every state
and every instant:

* it takes off exactly the longest prefix of requests due at `now` and leaves the others queued
  in their order, so the first request left, if any, is not due;
* it handles the requests it takes one after another in queue order (`redeemDue`): a request
  whose record is, at its turn, the record held under its ID moves that record into the
  redemption cache, which may evict and finalize another record and so make a later request
  stale; any other request changes nothing; the count it gives is the number of records moved.

A request is due the configured delay after the instant it is filed at, and no operation
changes the settings. So when every request is filed at an instant no earlier than the one
before (`Clocked`), the queue is in order of due instants in every state, and a drain leaves no
request due at its instant.
-/

namespace MountIndex

namespace Resolver

/-- One due request of a drain: the record it names, if still the current one, goes into the
redemption cache and is counted; a stale request changes nothing. -/
def redeemDue (acc : Resolver × Nat) (q : Request) : Resolver × Nat :=
  if acc.1.isCurrent q.handle then (acc.1.redeem q.handle, acc.2 + 1) else acc

/-! ## A drain is a fold over the due prefix -/

section Fold

theorem redeemDue_of_current {r : Resolver} {q : Request} (hc : r.isCurrent q.handle = true)
    (n : Nat) : redeemDue (r, n) q = (r.redeem q.handle, n + 1) := by
  simp [redeemDue, hc]

theorem redeemDue_of_stale {r : Resolver} {q : Request} (hc : r.isCurrent q.handle = false)
    (n : Nat) : redeemDue (r, n) q = (r, n) := by
  simp [redeemDue, hc]

theorem isCurrent_withQueue (r : Resolver) (qs : List Request) (h : Handle) :
    ({ r with queue := qs } : Resolver).isCurrent h = r.isCurrent h := rfl

theorem retire_withQueue (r : Resolver) (h : Handle) (qs : List Request) :
    ({ r with queue := qs } : Resolver).retire h = { r.retire h with queue := qs } := by
  calc ({ r with queue := qs } : Resolver).retire h
      = { ({ r with queue := qs } : Resolver) with
          mounts := (r.retire h).mounts, redemption := (r.retire h).redemption } :=
        retire_frame r { r with queue := qs } h
    _ = { r.retire h with queue := qs } := by
        conv_rhs => rw [retire_eta r h]

theorem redeem_withQueue (r : Resolver) (h : Handle) (qs : List Request) :
    ({ r with queue := qs } : Resolver).redeem h = { r.redeem h with queue := qs } := by
  rw [redeem_eq, redeem_eq]
  dsimp only
  cases (r.redemption.insert h.id h).2 with
  | none => rfl
  | some ke =>
    obtain ⟨_, e⟩ := ke
    exact retire_withQueue { r with redemption := (r.redemption.insert h.id h).1 } e qs

-- The queue plays no part in a drain step: setting it before the step or after comes to the same.
theorem redeemDue_withQueue (r : Resolver) (qs : List Request) (n : Nat) (q : Request) :
    redeemDue ({ r with queue := qs }, n) q =
      ({ (redeemDue (r, n) q).1 with queue := qs }, (redeemDue (r, n) q).2) := by
  cases hc : r.isCurrent q.handle
  · rw [redeemDue_of_stale hc, redeemDue_of_stale (by rw [isCurrent_withQueue]; exact hc)]
  · rw [redeemDue_of_current hc, redeemDue_of_current (by rw [isCurrent_withQueue]; exact hc),
      redeem_withQueue]

-- The drain loop pops the due requests one by one, setting the queue to what is left at each
-- pop; it comes to folding `redeemDue` over the due prefix from the state with the rest queued.
-- The induction follows the requests.
theorem dequeueGo_eq (now : Nat) : ∀ (qs : List Request) (r : Resolver) (n : Nat),
    dequeue.go now r qs n =
      (qs.takeWhile (·.due ≤ now)).foldl redeemDue ({ r with queue := qs.dropWhile (·.due ≤ now) }, n)
  | [], r, n => rfl
  | q :: rest, r, n => by
    by_cases hdue : q.due ≤ now
    · rw [List.takeWhile_cons_of_pos (by simpa using hdue),
        List.dropWhile_cons_of_pos (by simpa using hdue), List.foldl_cons, redeemDue_withQueue]
      simp only [dequeue.go, if_pos hdue]
      -- whether the record is current does not depend on the queue
      by_cases hc : r.isCurrent q.handle = true
      · rw [if_pos (show ({ r with queue := rest } : Resolver).isCurrent q.handle = true from hc),
          redeemDue_of_current hc, dequeueGo_eq now rest, redeem_withQueue]
      · rw [if_neg (show ¬ ({ r with queue := rest } : Resolver).isCurrent q.handle = true from hc),
          redeemDue_of_stale (by simpa using hc), dequeueGo_eq now rest]
    · rw [List.takeWhile_cons_of_neg (by simpa using hdue),
        List.dropWhile_cons_of_neg (by simpa using hdue)]
      simp only [dequeue.go, if_neg hdue, List.foldl_nil]

theorem dequeue_eq (r : Resolver) (now : Nat) :
    r.dequeue now = (r.queue.takeWhile (·.due ≤ now)).foldl redeemDue
      ({ r with queue := r.queue.dropWhile (·.due ≤ now) }, 0) :=
  dequeueGo_eq now r.queue r 0

-- A drain step keeps the settings and the queue.
theorem redeemDue_frame (acc : Resolver × Nat) (q : Request) :
    (redeemDue acc q).1.config = acc.1.config ∧ (redeemDue acc q).1.queue = acc.1.queue := by
  unfold redeemDue
  split <;> simp

theorem foldl_redeemDue_frame : ∀ (ds : List Request) (acc : Resolver × Nat),
    (ds.foldl redeemDue acc).1.config = acc.1.config ∧ (ds.foldl redeemDue acc).1.queue = acc.1.queue
  | [], _ => ⟨rfl, rfl⟩
  | d :: ds, acc => by
    obtain ⟨hc, hq⟩ := foldl_redeemDue_frame ds (redeemDue acc d)
    obtain ⟨hc', hq'⟩ := redeemDue_frame acc d
    exact ⟨hc.trans hc', hq.trans hq'⟩

theorem dequeue_queue (r : Resolver) (now : Nat) :
    (r.dequeue now).1.queue = r.queue.dropWhile (·.due ≤ now) := by
  rw [dequeue_eq]
  exact (foldl_redeemDue_frame _ _).2

theorem dequeue_config (r : Resolver) (now : Nat) : (r.dequeue now).1.config = r.config := by
  rw [dequeue_eq]
  exact (foldl_redeemDue_frame _ _).1

end Fold

/-! ## No operation changes the settings; only requests and drains change the queue -/

/-- `r'` has the settings and the delete queue of `r`. -/
def Steady (r r' : Resolver) : Prop := r'.config = r.config ∧ r'.queue = r.queue

namespace Steady

variable {r s t : Resolver}

theorem refl (r : Resolver) : Steady r r := ⟨rfl, rfl⟩

theorem trans (h₁ : Steady r s) (h₂ : Steady s t) : Steady r t :=
  ⟨h₂.1.trans h₁.1, h₂.2.trans h₁.2⟩

theorem place (r : Resolver) (m : Mount) : Steady r (r.place m) := by
  refine ⟨?_, place_queue r m⟩
  unfold Resolver.place
  split <;> simp

theorem merge (r : Resolver) (entries : List Table.Entry) : Steady r (r.merge entries).1 :=
  merge_rel Steady (fun _ => True) (fun s _ => refl s) trans (fun _ => trivial)
    (fun s e _ _ => place s e.toMount) trivial entries

theorem syncPids (r : Resolver) (pids : List Nat) : Steady r (r.syncPids pids).1 :=
  syncPids_rel Steady (fun _ => True) (fun s _ => refl s) trans (fun _ => trivial)
    (fun _ _ _ => ⟨rfl, rfl⟩) (fun s entries _ => merge s entries) trivial pids

theorem descend (r : Resolver) (base : String) (chain : List Mount) :
    Steady r (r.descend base chain).1 := by
  induction chain generalizing r base with
  | nil => exact refl r
  | cons m rest ih =>
    unfold Resolver.descend
    dsimp only
    split
    · exact refl r
    · exact trans ⟨rfl, rfl⟩ (ih _ _)

theorem mountPath (r : Resolver) (id : Nat) : Steady r (r.mountPath id).1 := by
  unfold Resolver.mountPath
  split
  · exact descend _ _ _
  · exact refl r

theorem resolveWith {α : Type} (find : Resolver → Resolver × Except MountError α)
    (hfind : ∀ s, Steady s (find s).1) (r : Resolver) (id pid : Nat) (container : String)
    (now : Nat) : Steady r (r.resolveWith id pid container now find).1 :=
  resolveWith_rel Steady (fun _ => True) (fun s _ => refl s) trans (fun _ => trivial)
    (fun _ _ _ _ => ⟨rfl, rfl⟩) (fun _ _ _ => ⟨rfl, rfl⟩) (fun s pids _ => syncPids s pids) find
    (fun s _ => hfind s) trivial id pid container now

theorem syncCache (r : Resolver) (pid : Nat) : Steady r (r.syncCache pid).1 := by
  unfold Resolver.syncCache refreshFloor
  dsimp only
  have h₁ := syncPids r [pid]
  split
  · refine trans h₁ ?_
    split
    · split
      · exact ⟨rfl, rfl⟩
      · exact refl _
    · exact refl _
  · exact h₁

end Steady

-- Every operation but a delete request and a drain keeps the settings and the queue.
theorem steady_run (r : Resolver) (op : Op) (hd : ∀ id now, op ≠ .deleteAt id now)
    (hq : ∀ now, op ≠ .dequeue now) : Steady r (op.run r) := by
  cases op with
  | insert m =>
    rw [run_insert]
    split
    · exact Steady.refl r
    · exact Steady.place r m
  | deleteAt id now => exact absurd rfl (hd id now)
  | dequeue now => exact absurd rfl (hq now)
  | resolveMount id pid container now =>
    exact Steady.resolveWith (fun s => (s, s.lookup id)) (fun s => Steady.refl s) r id pid container
      now
  | resolveRoot id pid container now =>
    rw [run_resolveRoot]
    exact Steady.resolveWith (fun s => (s, s.lookup id)) (fun s => Steady.refl s) r id pid container
      now
  | resolveFs id pid container now =>
    rw [run_resolveFs]
    exact Steady.resolveWith (fun s => (s, s.lookup id)) (fun s => Steady.refl s) r id pid container
      now
  | resolvePath id pid container now =>
    exact Steady.resolveWith (fun s => s.mountPath id) (fun s => Steady.mountPath s id) r id pid
      container now
  | syncCache pid => exact Steady.syncCache r pid
  | sendStats =>
    simp only [Op.run, sendStats_fst]
    exact ⟨rfl, rfl⟩
  | environment proc workloads => exact ⟨rfl, rfl⟩

theorem queue_create {config : Config} {workloads : Workloads} {proc : Proc} {sink : Sink}
    {r : Resolver} (h : Resolver.create config workloads proc sink = .ok r) : r.queue = [] := by
  unfold Resolver.create at h
  cases hv : config.validate with
  | error e => simp [hv, bind, Except.bind] at h
  | ok c =>
    obtain ⟨rfl, hcap⟩ := validate_ok hv
    simp only [hv, bind, Except.bind, Lru.redemption, if_neg hcap] at h
    split at h
    · cases h
    · cases h
      rfl

end Resolver

/-! ## Requests filed at instants that never go back -/

/-- The states reached from a freshly created cache by operations whose delete requests are
filed at instants that never go back; `t` is the instant of the last request, 0 before any. -/
inductive Clocked : Resolver → Nat → Prop
  | create {config : Config} {workloads : Workloads} {proc : Proc} {sink : Sink} {r : Resolver} :
      Resolver.create config workloads proc sink = .ok r → Clocked r 0
  | deleteAt {r : Resolver} {t : Nat} (id now : Nat) : Clocked r t → t ≤ now →
      Clocked ((Op.deleteAt id now).run r) now
  | step {r : Resolver} {t : Nat} (op : Op) : Clocked r t → (∀ id now, op ≠ .deleteAt id now) →
      Clocked (op.run r) t

namespace Resolver

/-- The delete queue is in order of due instants, and no request is due later than the delay
after `t`. -/
def Ordered (r : Resolver) (t : Nat) : Prop :=
  r.queue.Pairwise (fun a b => a.due ≤ b.due) ∧ ∀ q ∈ r.queue, q.due ≤ t + r.config.deleteDelay.nanos

section Ordered

variable {r r' : Resolver} {t : Nat}

theorem Ordered.of_steady (h : r.Ordered t) (hs : Steady r r') : r'.Ordered t := by
  unfold Ordered
  rw [hs.1, hs.2]
  exact h

theorem Ordered.dequeue (h : r.Ordered t) (now : Nat) : (r.dequeue now).1.Ordered t := by
  have hsuf := List.dropWhile_suffix (l := r.queue) (fun q => decide (q.due ≤ now))
  unfold Ordered
  rw [dequeue_queue, dequeue_config]
  exact ⟨h.1.sublist hsuf.sublist, fun q hq => h.2 q (hsuf.subset hq)⟩

-- A request filed no earlier than the last one is due no earlier than any request queued.
theorem Ordered.deleteAt (h : r.Ordered t) {id now : Nat} (htn : t ≤ now) :
    ((Op.deleteAt id now).run r).Ordered now := by
  simp only [Op.run]
  split
  · rename_i r' hd
    obtain ⟨g, -, rfl⟩ := deleteAt_eq hd
    refine ⟨List.pairwise_append.2 ⟨h.1, List.pairwise_singleton _ _, ?_⟩, ?_⟩
    · intro a ha b hb
      rw [List.mem_singleton.1 hb]
      have := h.2 a ha
      dsimp only
      omega
    · intro q hq
      rcases List.mem_append.1 hq with hq | hq
      · have := h.2 q hq
        dsimp only
        omega
      · obtain rfl := List.mem_singleton.1 hq
        exact Nat.le_refl _
  · exact ⟨h.1, fun q hq => by have := h.2 q hq; omega⟩

end Ordered

end Resolver

theorem Clocked.ordered {r : Resolver} {t : Nat} (h : Clocked r t) : r.Ordered t := by
  induction h with
  | create hc =>
    unfold Resolver.Ordered
    rw [Resolver.queue_create hc]
    exact ⟨List.Pairwise.nil, fun q hq => absurd hq List.not_mem_nil⟩
  | deleteAt id now _ htn ih => exact ih.deleteAt htn
  | step op _ hop ih =>
    by_cases hq : ∃ now, op = .dequeue now
    · obtain ⟨now, rfl⟩ := hq
      exact ih.dequeue now
    · exact ih.of_steady (Resolver.steady_run _ op hop fun now h => hq ⟨now, h⟩)

namespace Resolver


-- In a queue in order of due instants, what follows the due prefix is all not due.
theorem not_due_of_pairwise {now : Nat} : ∀ {qs : List Request},
    qs.Pairwise (fun a b => a.due ≤ b.due) → ∀ q ∈ qs.dropWhile (·.due ≤ now), now < q.due
  | [], _ => by simp
  | a :: rest, hp => by
    rw [List.pairwise_cons] at hp
    by_cases ha : a.due ≤ now
    · rw [List.dropWhile_cons_of_pos (by simpa using ha)]
      exact not_due_of_pairwise hp.2
    · rw [List.dropWhile_cons_of_neg (by simpa using ha)]
      intro q hq
      rcases List.mem_cons.1 hq with rfl | hq
      · omega
      · have := hp.1 q hq
        omega

theorem head_not_due (qs : List Request) (now : Nat) :
    ∀ q ∈ (qs.dropWhile (·.due ≤ now)).head?, now < q.due := by
  intro q hq
  have h := List.head?_dropWhile_not (fun q : Request => decide (q.due ≤ now)) qs
  rw [hq] at h
  simpa using h

/-- A drain, in any state and at any instant, takes off the queue exactly its longest prefix of
requests due at the instant and leaves the others in their order, the first of them not due.
It is a fold of `redeemDue` over the requests taken, in queue order: each whose record is at its
turn the current record of its ID moves into the redemption cache, which may evict and finalize
another record, and is counted; any other request is skipped and changes nothing. When every
delete request so far was filed at an instant no earlier than the one before, the queue is in
order of due instants, and the drain leaves no request due at its instant. -/
theorem dequeue_drains_due (r : Resolver) (now : Nat) :
    r.queue = r.queue.takeWhile (·.due ≤ now) ++ (r.dequeue now).1.queue ∧
    (r.dequeue now).1.queue = r.queue.dropWhile (·.due ≤ now) ∧
    (∀ q ∈ (r.dequeue now).1.queue.head?, now < q.due) ∧
    r.dequeue now = (r.queue.takeWhile (·.due ≤ now)).foldl redeemDue
      ({ r with queue := r.queue.dropWhile (·.due ≤ now) }, 0) ∧
    ∀ t, Clocked r t → r.queue.Pairwise (fun a b => a.due ≤ b.due) ∧
      ∀ q ∈ (r.dequeue now).1.queue, now < q.due := by
  have hq := dequeue_queue r now
  refine ⟨by rw [hq, List.takeWhile_append_dropWhile], hq, by rw [hq]; exact head_not_due _ _,
    dequeue_eq r now, fun t hc => ?_⟩
  have hord := (hc.ordered).1
  exact ⟨hord, by rw [hq]; exact not_due_of_pairwise hord⟩

end Resolver

-- Only the two delete requests of the sample run move its clock, and they are filed in order.
theorem Sample.filed_clocked : Clocked Sample.filed 1000000000 := by
  have hins : ∀ m id now, Op.insert m ≠ Op.deleteAt id now := fun _ _ _ h => by cases h
  have hmounted : Clocked Sample.mounted 0 :=
    .step _ (.step _ (.step _ (.step _ (.step _ (.create Sample.create_config) (hins _))
      (hins _)) (hins _)) (hins _)) (hins _)
  have hlookup : Clocked ((Op.resolveMount 99 1 "" 0).run Sample.mounted) 0 :=
    .step _ hmounted fun _ _ h => by cases h
  exact .deleteAt 23 1000000000 (.deleteAt 24 0 hlookup (Nat.le_refl 0)) (Nat.zero_le _)

namespace Resolver

theorem dequeue_drains_due_two :
    Clocked Sample.filed 1000000000 ∧
      Sample.filed.queue.Pairwise (fun a b => a.due ≤ b.due) ∧
      (Sample.filed.dequeue 5000000000).1.queue = [⟨⟨23, 3⟩, 6000000000⟩] ∧
      ∀ q ∈ (Sample.filed.dequeue 5000000000).1.queue, 5000000000 < q.due := by
  obtain ⟨-, hrest, -, -, hclock⟩ := dequeue_drains_due Sample.filed 5000000000
  obtain ⟨hord, hnot⟩ := hclock _ Sample.filed_clocked
  -- the first request is due at the drain, the second a second later
  exact ⟨Sample.filed_clocked, hord, hrest.trans (by decide +kernel), hnot⟩

end Resolver

end MountIndex
