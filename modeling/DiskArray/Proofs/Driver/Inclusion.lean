import DiskArray.Proofs.Cache.Inclusion
import DiskArray.Proofs.Driver.Lockstep

/-!
# Larger caches

The same requests to two drivers that have caches of two capacities and the same policy. Both answer alike, and at
every moment the smaller cache holds a part of what the larger one holds, so that more slots never cost a hit and
never make the device read a block more (`larger_cache_never_worse`).
-/

namespace DiskArray

/-- The smaller cache is within the larger one, and makes the device read as often or more. -/
structure Costs.Within (small large : Costs) : Prop where
  cache : small.cache.Within large.cache
  reads : large.reads ≤ small.reads
  writes : small.writes = large.writes

theorem Costs.stable_within : Costs.Stable Costs.Within where
  load {small large} id block h := by
    refine ⟨h.cache.access id block, Nat.add_le_add h.reads ?_, h.writes⟩
    by_cases hid : small.cache.holds id
    · simp [hid, h.cache.holds hid]
    · rw [if_neg hid]
      split <;> omega
  store {small large} id block h :=
    ⟨h.cache.keep id block, h.reads, congrArg (· + 1) h.writes⟩

namespace Driver

/-- A new driver over a blank disk, with a cache of this capacity. -/
def cached (policy : EvictionPolicy) (n : Nat) : Driver (Device MemoryDisk) :=
  (serveCache { device := { backing := .blank }, cache := .unused policy } (.create n)).state

theorem cached_eq (policy : EvictionPolicy) {n : Nat} (hn : Cache.CapacityOk n) :
    ∃ cache, (Cache.unused policy).create n = .ok cache ∧
      cached policy n = { device := { backing := .blank }, cache } := by
  have hcreate : (Cache.unused policy).create n =
      .ok { Cache.unused policy with slots := List.replicate n none, clock := 0 } := by
    rw [Cache.create, if_neg (show ¬ (Cache.unused policy).isEnabled = true from Bool.false_ne_true), if_pos hn]
  refine ⟨_, hcreate, ?_⟩
  simp only [cached, serveCache, Cache.serve, Cache.apply, hcreate, Outcome.ofExcept]

theorem agree_cached (policy : EvictionPolicy) {n m : Nat} (hn : Cache.CapacityOk n) (hm : Cache.CapacityOk m)
    (hnm : n ≤ m) : (cached policy n).Agree Costs.Within (cached policy m) := by
  obtain ⟨small, hsmall, hleft⟩ := cached_eq policy hn
  obtain ⟨large, hlarge, hright⟩ := cached_eq policy hm
  have hunused : (Cache.unused policy).Coherent (blockAt MemoryDisk.blank) := .unused policy _
  rw [hleft, hright]
  exact {
    left := ⟨trivial, rfl, hunused.apply (r := .create n) hsmall⟩
    right := ⟨trivial, rfl, hunused.apply (r := .create m) hlarge⟩
    backing := rfl
    signatures := rfl
    mounted := rfl
    writable := rfl
    costs := ⟨.of_create hnm hsmall hlarge, Nat.le_refl _, rfl⟩ }

/-- With the same requests and the same policy, a cache with more slots holds all that one with fewer holds, with
the same stamps, has as many hits or more, and never makes the device read more often. All answers are the same. -/
theorem larger_cache_never_worse (policy : EvictionPolicy) {n m : Nat} (hn : Cache.CapacityOk n)
    (hm : Cache.CapacityOk m) (hnm : n ≤ m) (requests : List Request) :
    let small := (cached policy n).run (requests.map .request)
    let large := (cached policy m).run (requests.map .request)
    small.1 = large.1 ∧
      small.2.cache.clock = large.2.cache.clock ∧
      small.2.cache.queries = large.2.cache.queries ∧
      (∀ e, some e ∈ small.2.cache.slots → some e ∈ large.2.cache.slots) ∧
      small.2.cache.hits ≤ large.2.cache.hits ∧
      large.2.device.tally.of .readBlock ≤ small.2.device.tally.of .readBlock ∧
      small.2.device.tally.of .writeBlock = large.2.device.tally.of .writeBlock := by
  obtain ⟨hanswers, hagree⟩ := (agree_cached policy hn hm hnm).run Costs.stable_within requests
  obtain ⟨hcache, hreads, hwrites⟩ := hagree.costs
  refine ⟨hanswers, hcache.clock, hcache.queries, fun e he => ?_, hcache.hits, hreads, hwrites⟩
  exact Cache.mem_entries.1 (hcache.subset (Cache.mem_entries.2 he))

/-- Three blocks are read in turn, twice: two slots never hold the next one, three hold it the second time. -/
theorem larger_cache_never_worse_of_reads :
    ∃ requests : List Request,
      ((cached .leastRecent 2).run (requests.map .request)).1 =
        ((cached .leastRecent 3).run (requests.map .request)).1 ∧
      ((cached .leastRecent 2).run (requests.map .request)).2.device.tally.of .readBlock = 6 ∧
      ((cached .leastRecent 3).run (requests.map .request)).2.device.tally.of .readBlock = 3 := by
  refine ⟨[.mount, .read 0 1 (some [0]), .read 256 1 (some [0]), .read 512 1 (some [0]), .read 0 1 (some [0]),
    .read 256 1 (some [0]), .read 512 1 (some [0])],
    (larger_cache_never_worse .leastRecent (by decide) (by decide) (by decide) _).1, ?_, ?_⟩
  · decide +kernel
  · decide +kernel

end Driver

end DiskArray
