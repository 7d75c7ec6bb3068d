import MountIndex.Proofs.Lookup

/-!
# Reachable states

The states of a cache are those reached from a freshly created cache by any sequence of its
operations: inserting a record, filing a delete request, draining the delete queue, the four
lookups (each at the instant it runs), loading a process's mount table and flushing the
counters. The surroundings change on their own between operations: any proc filesystem and any
table of containers may stand in for the ones before. Queries (`stateOf`, `validate`,
`candidates`, the sizes) read a state and make no new one; the other entry points
(`fsOrUnknown`, `rows`, `reconcile`, the maintenance sweep) are sequences of these operations.

Every reachable state is `Sound`.
-/

namespace MountIndex

/-- An operation on a cache, or a change of its surroundings. -/
inductive Op where
  | insert (m : Mount)
  | deleteAt (id now : Nat)
  | dequeue (now : Nat)
  | resolveMount (id pid : Nat) (container : String) (now : Nat)
  | resolvePath (id pid : Nat) (container : String) (now : Nat)
  | resolveRoot (id pid : Nat) (container : String) (now : Nat)
  | resolveFs (id pid : Nat) (container : String) (now : Nat)
  | syncCache (pid : Nat)
  | sendStats
  | environment (proc : Proc) (workloads : Workloads)

namespace Op

/-- The cache after an operation; a refused insert or delete request leaves it as it was. -/
def run : Op → Resolver → Resolver
  | .insert m, r =>
    match r.insert m with
    | .ok r' => r'
    | .error _ => r
  | .deleteAt id now, r =>
    match r.deleteAt id now with
    | .ok r' => r'
    | .error _ => r
  | .dequeue now, r => (r.dequeue now).1
  | .resolveMount id pid container now, r => (r.resolveMount id pid container now).1
  | .resolvePath id pid container now, r => (r.resolvePath id pid container now).1
  | .resolveRoot id pid container now, r => (r.resolveRoot id pid container now).1
  | .resolveFs id pid container now, r => (r.resolveFs id pid container now).1
  | .syncCache pid, r => (r.syncCache pid).1
  | .sendStats, r => r.sendStats.1
  | .environment proc workloads, r => { r with proc, workloads }

/-- Whether an operation reads mount tables and may add what they list. -/
def Fetches : Op → Prop
  | .resolveMount .. | .resolvePath .. | .resolveRoot .. | .resolveFs .. | .syncCache _ => True
  | _ => False

end Op

/-- The states a cache reaches from its creation. -/
inductive Reachable : Resolver → Prop
  | create {config : Config} {workloads : Workloads} {proc : Proc} {sink : Sink} {r : Resolver} :
      Resolver.create config workloads proc sink = .ok r → Reachable r
  | step {r : Resolver} (op : Op) : Reachable r → Reachable (op.run r)

namespace Resolver

theorem insert_eq {r : Resolver} {m : Mount} :
    r.insert m = if m.id = 0 then .error .undefined else .ok (r.place m) := rfl

theorem run_insert (r : Resolver) (m : Mount) :
    (Op.insert m).run r = if m.id = 0 then r else r.place m := by
  by_cases h : m.id = 0 <;> simp [Op.run, insert_eq, h]

theorem run_resolveRoot (r : Resolver) (id pid : Nat) (container : String) (now : Nat) :
    (Op.resolveRoot id pid container now).run r = (r.resolveMount id pid container now).1 := rfl

theorem run_resolveFs (r : Resolver) (id pid : Nat) (container : String) (now : Nat) :
    (Op.resolveFs id pid container now).run r = (r.resolveMount id pid container now).1 := rfl

-- A configuration passes its checks unchanged, and only with room in the redemption cache.
theorem validate_ok {c c' : Config} (h : c.validate = .ok c') : c' = c ∧ c.redemptionCapacity ≠ 0 := by
  unfold Config.validate at h
  split_ifs at h with h0
  cases h
  exact ⟨rfl, h0⟩

theorem sound_create {config : Config} {workloads : Workloads} {proc : Proc} {sink : Sink}
    {r : Resolver} (h : Resolver.create config workloads proc sink = .ok r) : r.Sound := by
  unfold Resolver.create at h
  cases hv : config.validate with
  | error e => simp [hv, bind, Except.bind] at h
  | ok c =>
    obtain ⟨rfl, hcap⟩ := validate_ok hv
    simp only [hv, bind, Except.bind, Lru.redemption, if_neg hcap] at h
    split at h
    · cases h
    · cases h
      exact ⟨⟨by simp [Store.Distinct], by simp⟩, fun e he => by simp at he, Nat.pos_of_ne_zero hcap,
        rfl, Nat.zero_le _, fun k g hg => by simp at hg, fun q hq => by simp at hq⟩

-- The operations that read mount tables are the lookups: they keep every record and add only
-- records under IDs they did not know.
theorem Sound.keeps_of_fetches {r : Resolver} (hs : r.Sound) {op : Op} (hf : op.Fetches) :
    Keeps r (op.run r) := by
  cases op with
  | resolveMount id pid container now => exact Keeps.resolveMount hs id pid container now
  | resolvePath id pid container now => exact Keeps.resolvePath hs id pid container now
  | resolveRoot id pid container now => exact Keeps.resolveMount hs id pid container now
  | resolveFs id pid container now => exact Keeps.resolveMount hs id pid container now
  | syncCache pid => exact Keeps.syncCache hs pid
  | insert _ | deleteAt _ _ | dequeue _ | sendStats | environment _ _ => exact (hf : False).elim

-- Each operation keeps a sound state sound.
theorem Sound.run {r : Resolver} (hs : r.Sound) (op : Op) : (op.run r).Sound := by
  cases op with
  | insert m =>
    rw [run_insert]
    split
    · exact hs
    · exact hs.place m
  | deleteAt id now =>
    simp only [Op.run]
    split
    · rename_i r' h
      exact hs.deleteAt h
    · exact hs
  | dequeue now => exact hs.dequeue now
  | resolveMount _ _ _ _ | resolvePath _ _ _ _ | resolveRoot _ _ _ _ | resolveFs _ _ _ _
  | syncCache _ =>
    refine (hs.keeps_of_fetches ?_).1
    trivial
  | sendStats => exact (Keeps.sendStats hs).1
  | environment proc workloads => exact hs.of_eq rfl rfl rfl rfl rfl

end Resolver

/-- The cache with the default settings, no table of containers, an empty proc filesystem and
a sink that keeps nothing. -/
def Resolver.initial : Resolver where
  config := {}
  redemption := { capacity := 1024 }
  limiter := { buckets := { capacity := 64 }, period := 5000000000, burst := 1 }
  workloads := .none
  proc := { root := "/proc" }
  sink := .discard

theorem Reachable.sound {r : Resolver} (h : Reachable r) : r.Sound := by
  induction h with
  | create hc => exact Resolver.sound_create hc
  | step op _ ih => exact ih.run op

/-! ## A sample run

The cache the examples of later modules run on. Created with room for one redeemed record, it
holds a root mount, an overlay mounted on it, a proc filesystem mounted under the overlay, a
second mount on the overlay's device and a tmpfs (`mounted`). A lookup of an unknown ID then
falls back to the empty proc filesystem, and delete requests for the tmpfs and for the mount on
the overlay's device are filed one second apart (`filed`); a drain at the instant the first
request is due redeems the tmpfs and leaves the other waiting (`drained`). -/

namespace Sample

/-- The default settings with room for one redeemed record. -/
def config : Config := { redemptionCapacity := 1 }

def root : Mount := { id := 20, parent := 1, device := 2049, fsType := "ext4", mountPoint := "/" }

def overlay : Mount :=
  { id := 21, parent := 20, device := 50, fsType := "overlay", mountPoint := "merged" }

def procfs : Mount := { id := 22, parent := 21, device := 4, fsType := "proc", mountPoint := "proc" }

def lower : Mount := { id := 23, parent := 20, device := 50, fsType := "xfs", mountPoint := "lower" }

def tmp : Mount := { id := 24, parent := 20, device := 30, fsType := "tmpfs", mountPoint := "tmp" }

def created : Resolver := { Resolver.initial with config, redemption := { capacity := 1 } }

theorem create_config : Resolver.create config .none { root := "/proc" } .discard = .ok created :=
  rfl

def mounted : Resolver :=
  created |> (Op.insert root).run |> (Op.insert overlay).run |> (Op.insert procfs).run
    |> (Op.insert lower).run |> (Op.insert tmp).run

def filed : Resolver :=
  mounted |> (Op.resolveMount 99 1 "" 0).run |> (Op.deleteAt 24 0).run
    |> (Op.deleteAt 23 1000000000).run

def drained : Resolver := (Op.dequeue 5000000000).run filed

theorem mounted_reachable : Reachable mounted :=
  .step _ <| .step _ <| .step _ <| .step _ <| .step _ <| .create create_config

theorem filed_reachable : Reachable filed := .step _ <| .step _ <| .step _ mounted_reachable

theorem drained_reachable : Reachable drained := .step _ filed_reachable

end Sample

end MountIndex
