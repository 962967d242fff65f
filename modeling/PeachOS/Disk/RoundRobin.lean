/-
**The buckets of the cache and their queue: `disk/streamer.c`.**

The cache of a disk is a tree of buckets of three levels. Every new entry puts its level-3 bucket into a queue of
1024 slots, and the bucket that the slot held before is freed when it is in no other slot. Nothing takes it out
of its level-2 bucket, where the next lookup finds it.

* `roundRobinAdd_counts` — the counts are the numbers of slots of the queue, whatever is freed;
* `cacheSound_iff` — what was freed is still in its level-2 bucket, so the queue is sound only as long as nothing is;
* `cacheSound_of_reachable` — the runs that stay sound, and that no other step does.
-/

import PeachOS.Disk.Reads
import PeachOS.Lib.SlotCount
import PeachOS.Lib.StepRun

namespace PeachOS

open SlotCount StepRun

/-- `DISK_STREAM_CACHE_ROUNDROBIN_MAX`. -/
abbrev diskStreamCacheRoundrobinMax : Nat := 1024

/-- `DISK_STREAMER_CACHE_STATUS_NEW_CACHE_ENTRY`. -/
def diskStreamerCacheStatusNewCacheEntry : Int := 1

/-- `DISK_STREAMER_CACHE_STATUS_CACHE_FOUND`. -/
def diskStreamerCacheStatusCacheFound : Int := 0

/-! ### The tree of buckets -/

/-- `struct disk_stream_cache_bucket_level3`: which sectors have an entry, and the count of the queue. The number
of its sectors is never read. -/
structure DiskStreamCacheBucketLevel3 where
  sectors : Nat → Bool
  roundrobinCount : Int

/-- `struct disk_stream_cache`. A level-3 bucket is known by its address; those of the other levels are never freed
nor shared, so they are known by their indexes. `nextBucket` is the next address of the allocator, and `freed` tells
what `diskstreamer_cache_bucket_level3_free` was called for. -/
structure BucketCache where
  level1 : Nat → Bool
  level2 : Nat → Nat → Bool
  level3 : Nat → Nat → Nat → Option Nat
  buckets : Nat → DiskStreamCacheBucketLevel3
  queue : Nat → Option Nat
  pos : Int
  nextBucket : Nat
  freed : Nat → Bool

/-- Which allocations of a lookup succeed. -/
structure BucketAllocations where
  level1 : Bool
  level2 : Bool
  level3 : Bool
  sector : Bool

namespace BucketCache

/-- `diskstreamer_cache_new`. -/
def new : BucketCache where
  level1 := fun _ => false
  level2 := fun _ _ => false
  level3 := fun _ _ _ => none
  buckets := fun _ => ⟨fun _ => false, 0⟩
  queue := fun _ => none
  pos := 0
  nextBucket := 0
  freed := fun _ => false

def setBucket (cache : BucketCache) (bucket : Nat) (level3 : DiskStreamCacheBucketLevel3) : BucketCache :=
  { cache with buckets := fun other => if other = bucket then level3 else cache.buckets other }

def setCount (cache : BucketCache) (bucket : Nat) (count : Int) : BucketCache :=
  cache.setBucket bucket { cache.buckets bucket with roundrobinCount := count }

end BucketCache

/-- `diskstreamer_cache_bucket_level1_get`, `false` for `NULL`. -/
def diskstreamerCacheBucketLevel1Get (allocations : BucketAllocations) (cache : BucketCache) (index : Nat) : Bool × BucketCache :=
  if cache.level1 index then (true, cache)
  else if allocations.level1 then
    (true, { cache with level1 := fun other => if other = index then true else cache.level1 other })
  else (false, cache)

/-- `diskstreamer_cache_bucket_level2_get`. The index is a remainder, so the bound is kept. -/
def diskstreamerCacheBucketLevel2Get (allocations : BucketAllocations) (cache : BucketCache) (level1 index : Nat) :
    Bool × BucketCache :=
  if cache.level2 level1 index then (true, cache)
  else if allocations.level2 then
    (true, { cache with
      level2 := fun other other' => if other = level1 ∧ other' = index then true else cache.level2 other other' })
  else (false, cache)

/-- `diskstreamer_cache_bucket_level3_get`: the bucket, and the cache. -/
def diskstreamerCacheBucketLevel3Get (allocations : BucketAllocations) (cache : BucketCache) (level1 level2 index : Nat) :
    Option Nat × BucketCache :=
  match cache.level3 level1 level2 index with
  | some level3 => (some level3, cache)
  | none =>
      if allocations.level3 then
        (some cache.nextBucket,
          { cache.setBucket cache.nextBucket ⟨fun _ => false, 0⟩ with
            level3 := fun other other' other'' =>
              if other = level1 ∧ other' = level2 ∧ other'' = index then some cache.nextBucket
              else cache.level3 other other' other''
            nextBucket := cache.nextBucket + 1 })
      else (none, cache)

/-- `diskstreamer_cache_bucket_level3_free`. -/
def diskstreamerCacheBucketLevel3Free (cache : BucketCache) (level3 : Nat) : BucketCache :=
  { cache with freed := fun other => if other = level3 then true else cache.freed other }

/-- What `diskstreamer_cache_round_robin_add` does to the bucket that leaves its slot. -/
def diskstreamerCacheRoundRobinEvict (cache : BucketCache) (oldElem : Nat) : BucketCache :=
  let count := (cache.buckets oldElem).roundrobinCount - 1
  let cache := cache.setCount oldElem count
  if count = 0 then diskstreamerCacheBucketLevel3Free cache oldElem else cache

/-- `diskstreamer_cache_round_robin_add`, `none` for an index below the queue. -/
def diskstreamerCacheRoundRobinAdd (cache : BucketCache) (level3 : Nat) : Option BucketCache :=
  let index := cache.pos.tmod diskStreamCacheRoundrobinMax
  if index < 0 then none
  else
    let cache :=
      match cache.queue index.toNat with
      | some oldElem => diskstreamerCacheRoundRobinEvict cache oldElem
      | none => cache
    let cache := { cache with queue := write cache.queue index.toNat level3 }
    let cache := cache.setCount level3 ((cache.buckets level3).roundrobinCount + 1)
    some { cache with pos := toInt32 (cache.pos + 1) }

/-- `diskstreamer_cache_find` with the buckets of the cache: the result, and `none` where an index leaves its array. -/
def diskstreamerCacheFindBuckets (allocations : BucketAllocations) (sectorSize : Nat) (cache : BucketCache) (pos : Int) :
    Option (Int × BucketCache) :=
  match cacheSlot sectorSize pos with
  | none => none
  | some slot =>
      let (level1, cache) := diskstreamerCacheBucketLevel1Get allocations cache slot.level1
      if !level1 then some (einval, cache)
      else
        let (level2, cache) := diskstreamerCacheBucketLevel2Get allocations cache slot.level1 slot.level2
        if !level2 then some (einval, cache)
        else
          match diskstreamerCacheBucketLevel3Get allocations cache slot.level1 slot.level2 slot.level3 with
          | (none, cache) => some (einval, cache)
          | (some level3, cache) =>
              if (cache.buckets level3).sectors slot.sector then some (diskStreamerCacheStatusCacheFound, cache)
              else if allocations.sector then
                let cache := cache.setBucket level3
                  { cache.buckets level3 with
                    sectors := fun other => if other = slot.sector then true else (cache.buckets level3).sectors other }
                (diskstreamerCacheRoundRobinAdd cache level3).map fun cache => (diskStreamerCacheStatusNewCacheEntry, cache)
              else some (enomem, cache)

/-! ### What the queue counts -/

/-- A level-3 bucket that a level-2 bucket refers to. -/
def BucketCache.InTree (cache : BucketCache) (bucket : Nat) : Prop :=
  ∃ level1 level2 index, cache.level3 level1 level2 index = some bucket

/-- **The queue is counted**: counts are numbers of slots, and all buckets of the queue, the freed ones too, are in
the tree. -/
structure QueueCounted (cache : BucketCache) : Prop where
  counts : ∀ bucket, (cache.buckets bucket).roundrobinCount = slotCount diskStreamCacheRoundrobinMax cache.queue bucket
  inTree : ∀ index bucket, cache.queue index = some bucket → cache.InTree bucket
  freedInTree : ∀ bucket, cache.freed bucket = true → cache.InTree bucket
  fresh : ∀ bucket, cache.InTree bucket → bucket < cache.nextBucket

theorem queueCounted_new : QueueCounted .new where
  counts bucket := by
    change (0 : Int) = slotCount diskStreamCacheRoundrobinMax (fun _ => none) bucket
    rw [slotCount_empty, Nat.cast_zero]
  inTree _ _ isQueued := by cases isQueued
  freedInTree _ isFreed := by cases isFreed
  fresh bucket inTree := by
    obtain ⟨_, _, _, isBucket⟩ := inTree
    cases isBucket

/-- **What a lookup leaves of a cache** before it adds to the queue. -/
structure Grows (cache cache' : BucketCache) : Prop where
  counted : QueueCounted cache'
  queue : cache'.queue = cache.queue
  pos : cache'.pos = cache.pos
  freed : cache'.freed = cache.freed
  inTree : ∀ bucket, cache.InTree bucket → cache'.InTree bucket
  counts : ∀ bucket, cache.InTree bucket → (cache'.buckets bucket).roundrobinCount = (cache.buckets bucket).roundrobinCount

section Lookups

variable {cache cache' cache'' : BucketCache}

theorem QueueCounted.grows (counted : QueueCounted cache) : Grows cache cache :=
  ⟨counted, rfl, rfl, rfl, fun _ inTree => inTree, fun _ _ => rfl⟩

theorem Grows.trans (first : Grows cache cache') (second : Grows cache' cache'') : Grows cache cache'' where
  counted := second.counted
  queue := second.queue.trans first.queue
  pos := second.pos.trans first.pos
  freed := second.freed.trans first.freed
  inTree bucket inTree := second.inTree bucket (first.inTree bucket inTree)
  counts bucket inTree := (second.counts bucket (first.inTree bucket inTree)).trans (first.counts bucket inTree)

theorem level1Get_tree (allocations : BucketAllocations) (cache : BucketCache) (index : Nat) :
    ∃ level1, (diskstreamerCacheBucketLevel1Get allocations cache index).2 = { cache with level1 := level1 } := by
  unfold diskstreamerCacheBucketLevel1Get
  split
  · exact ⟨_, rfl⟩
  · split <;> exact ⟨_, rfl⟩

theorem level2Get_tree (allocations : BucketAllocations) (cache : BucketCache) (level1 index : Nat) :
    ∃ level2, (diskstreamerCacheBucketLevel2Get allocations cache level1 index).2 = { cache with level2 := level2 } := by
  unfold diskstreamerCacheBucketLevel2Get
  split
  · exact ⟨_, rfl⟩
  · split <;> exact ⟨_, rfl⟩

/-- New buckets of the upper levels. -/
theorem QueueCounted.withLevels (counted : QueueCounted cache) (level1 : Nat → Bool) (level2 : Nat → Nat → Bool) :
    Grows cache { cache with level1 := level1, level2 := level2 } :=
  ⟨⟨counted.counts, counted.inTree, counted.freedInTree, counted.fresh⟩, rfl, rfl, rfl, fun _ inTree => inTree,
    fun _ _ => rfl⟩

/-- The count of a bucket that is set to what it was. -/
theorem setBucket_counts {bucket : Nat} {level3 : DiskStreamCacheBucketLevel3}
    (same : level3.roundrobinCount = (cache.buckets bucket).roundrobinCount) (other : Nat) :
    ((cache.setBucket bucket level3).buckets other).roundrobinCount = (cache.buckets other).roundrobinCount := by
  unfold BucketCache.setBucket
  dsimp only
  by_cases here : other = bucket
  · rw [if_pos here, same, here]
  · rw [if_neg here]

theorem setBucket_grows (counted : QueueCounted cache) {bucket : Nat} {level3 : DiskStreamCacheBucketLevel3}
    (same : level3.roundrobinCount = (cache.buckets bucket).roundrobinCount) : Grows cache (cache.setBucket bucket level3) where
  counted := ⟨fun other => (setBucket_counts same other).trans (counted.counts other), counted.inTree, counted.freedInTree,
    counted.fresh⟩
  queue := rfl
  pos := rfl
  freed := rfl
  inTree _ inTree := inTree
  counts other _ := setBucket_counts same other

/-- The address of a new bucket is in no slot. -/
theorem QueueCounted.fresh_count (counted : QueueCounted cache) :
    slotCount diskStreamCacheRoundrobinMax cache.queue cache.nextBucket = 0 :=
  slotCount_eq_zero_iff.mpr fun index _ isQueued =>
    Nat.lt_irrefl _ (counted.fresh _ (counted.inTree index _ isQueued))

/-- A new level-3 bucket, which no slot holds. -/
theorem level3Get_grows (counted : QueueCounted cache) (allocations : BucketAllocations) (level1 level2 index : Nat) :
    Grows cache (diskstreamerCacheBucketLevel3Get allocations cache level1 level2 index).2 ∧
      ∀ bucket, (diskstreamerCacheBucketLevel3Get allocations cache level1 level2 index).1 = some bucket →
        (diskstreamerCacheBucketLevel3Get allocations cache level1 level2 index).2.InTree bucket := by
  unfold diskstreamerCacheBucketLevel3Get
  cases known : cache.level3 level1 level2 index with
  | some bucket => exact ⟨counted.grows, fun other same => ⟨level1, level2, index, known.trans same⟩⟩
  | none =>
      dsimp only
      by_cases allocates : allocations.level3 = true
      · rw [if_pos allocates]
        have same : ((⟨fun _ => false, 0⟩ : DiskStreamCacheBucketLevel3)).roundrobinCount =
            (cache.buckets cache.nextBucket).roundrobinCount := by
          rw [counted.counts, counted.fresh_count]
          rfl
        have keeps : ∀ bucket, cache.InTree bucket → ∃ other other' other'',
            (if other = level1 ∧ other' = level2 ∧ other'' = index then some cache.nextBucket
              else cache.level3 other other' other'') = some bucket := by
          rintro bucket ⟨other, other', other'', isBucket⟩
          refine ⟨other, other', other'', ?_⟩
          rw [if_neg, isBucket]
          rintro ⟨rfl, rfl, rfl⟩
          rw [known] at isBucket
          cases isBucket
        refine ⟨⟨⟨fun other => (setBucket_counts same other).trans (counted.counts other), fun slot bucket isQueued =>
          keeps bucket (counted.inTree slot bucket isQueued),
            fun bucket isFreed => keeps bucket (counted.freedInTree bucket isFreed),
          ?_⟩, rfl, rfl, rfl, keeps, fun other _ => setBucket_counts same other⟩, ?_⟩
        · rintro bucket ⟨other, other', other'', isBucket⟩
          dsimp only at isBucket ⊢
          by_cases here : other = level1 ∧ other' = level2 ∧ other'' = index
          · rw [if_pos here, Option.some.injEq] at isBucket
            omega
          · rw [if_neg here] at isBucket
            have := counted.fresh bucket ⟨other, other', other'', isBucket⟩
            omega
        · rintro bucket isNew
          cases isNew
          exact ⟨level1, level2, index, if_pos ⟨rfl, rfl, rfl⟩⟩
      · rw [if_neg allocates]
        exact ⟨counted.grows, fun other same => by cases same⟩

/-- **Which bucket a new entry evicts for good**: that of the next slot of the queue, when the slot is its last. -/
def BucketCache.Evicts (cache : BucketCache) (bucket : Nat) : Prop :=
  cache.queue (cache.pos.tmod diskStreamCacheRoundrobinMax).toNat = some bucket ∧
    (cache.buckets bucket).roundrobinCount = 1

theorem Grows.evicts_iff (counted : QueueCounted cache) (grows : Grows cache cache') (bucket : Nat) :
    cache'.Evicts bucket ↔ cache.Evicts bucket := by
  unfold BucketCache.Evicts
  rw [grows.queue, grows.pos]
  exact and_congr_right fun isQueued => by rw [grows.counts bucket (counted.inTree _ bucket isQueued)]

/-- The counts after a bucket has left its slot. -/
theorem evict_counts (oldElem other : Nat) :
    ((diskstreamerCacheRoundRobinEvict cache oldElem).buckets other).roundrobinCount =
      (cache.buckets other).roundrobinCount - if oldElem = other then 1 else 0 := by
  have set : ((cache.setCount oldElem ((cache.buckets oldElem).roundrobinCount - 1)).buckets other).roundrobinCount =
      (cache.buckets other).roundrobinCount - if oldElem = other then 1 else 0 := by
    unfold BucketCache.setCount BucketCache.setBucket
    dsimp only
    by_cases here : other = oldElem
    · rw [if_pos here, if_pos here.symm, here]
    · rw [if_neg here, if_neg (Ne.symm here), sub_zero]
  unfold diskstreamerCacheRoundRobinEvict
  dsimp only
  split
  · exact set
  · exact set

theorem evict_freed (oldElem bucket : Nat) :
    (diskstreamerCacheRoundRobinEvict cache oldElem).freed bucket = true ↔
      cache.freed bucket = true ∨ (oldElem = bucket ∧ (cache.buckets bucket).roundrobinCount = 1) := by
  unfold diskstreamerCacheRoundRobinEvict diskstreamerCacheBucketLevel3Free
  dsimp only
  by_cases last : (cache.buckets oldElem).roundrobinCount - 1 = 0
  · rw [if_pos last]
    dsimp only
    by_cases here : bucket = oldElem
    · subst here
      rw [if_pos rfl]
      exact ⟨fun _ => Or.inr ⟨rfl, by omega⟩, fun _ => rfl⟩
    · rw [if_neg here]
      exact ⟨Or.inl, fun freed => freed.resolve_right fun isOld => here isOld.1.symm⟩
  · rw [if_neg last]
    refine ⟨Or.inl, fun freed => freed.resolve_right ?_⟩
    rintro ⟨rfl, count⟩
    omega

/-- The cache after a slot of the queue has been vacated. -/
theorem vacated_spec (cache : BucketCache) (index : Nat) :
    ∃ vacated : BucketCache,
      (match cache.queue index with
        | some oldElem => diskstreamerCacheRoundRobinEvict cache oldElem
        | none => cache) = vacated ∧ vacated.level3 = cache.level3 ∧ vacated.queue = cache.queue ∧
      vacated.nextBucket = cache.nextBucket ∧
      (∀ other, (vacated.buckets other).roundrobinCount =
        (cache.buckets other).roundrobinCount - if cache.queue index = some other then 1 else 0) ∧
      ∀ bucket, vacated.freed bucket = true ↔
        cache.freed bucket = true ∨ (cache.queue index = some bucket ∧ (cache.buckets bucket).roundrobinCount = 1) := by
  cases isOld : cache.queue index with
  | none =>
      refine ⟨cache, rfl, rfl, rfl, rfl, fun other => ?_, fun bucket => ?_⟩
      · rw [if_neg (by simp), sub_zero]
      · exact ⟨Or.inl, fun freed => freed.resolve_right fun isOld => by cases isOld.1⟩
  | some oldElem =>
      have same : (diskstreamerCacheRoundRobinEvict cache oldElem).level3 = cache.level3 ∧
          (diskstreamerCacheRoundRobinEvict cache oldElem).queue = cache.queue ∧
          (diskstreamerCacheRoundRobinEvict cache oldElem).nextBucket = cache.nextBucket := by
        unfold diskstreamerCacheRoundRobinEvict
        dsimp only
        split
        · exact ⟨rfl, rfl, rfl⟩
        · exact ⟨rfl, rfl, rfl⟩
      refine ⟨_, rfl, same.1, same.2.1, same.2.2, fun other => ?_, fun bucket => ?_⟩
      · rw [evict_counts]
        simp only [Option.some.injEq]
      · rw [evict_freed]
        simp only [Option.some.injEq]

/-- **A bucket is added to the queue**: counts stay numbers of slots, and a bucket is freed when it leaves its
last slot, also when it is the one that is added. -/
theorem roundRobinAdd_counts (counted : QueueCounted cache) {level3 : Nat} (inTree : cache.InTree level3)
    (added : diskstreamerCacheRoundRobinAdd cache level3 = some cache') :
    QueueCounted cache' ∧ ∀ bucket, cache'.freed bucket = true ↔ cache.freed bucket = true ∨ cache.Evicts bucket := by
  unfold diskstreamerCacheRoundRobinAdd at added
  dsimp only at added
  by_cases outside : cache.pos.tmod diskStreamCacheRoundrobinMax < 0
  · rw [if_pos outside] at added
    cases added
  · rw [if_neg outside, Option.some.injEq] at added
    have inside : (cache.pos.tmod diskStreamCacheRoundrobinMax).toNat < diskStreamCacheRoundrobinMax := by
      have := Int.tmod_lt_of_pos cache.pos (show (0 : Int) < diskStreamCacheRoundrobinMax by decide)
      omega
    unfold BucketCache.Evicts
    generalize (cache.pos.tmod diskStreamCacheRoundrobinMax).toNat = index at added inside ⊢
    obtain ⟨vacated, isVacated, level3Same, queueSame, nextSame, counts, freed⟩ := vacated_spec cache index
    rw [isVacated] at added
    have inTreeSame : ∀ bucket, cache'.InTree bucket ↔ cache.InTree bucket := by
      intro bucket
      unfold BucketCache.InTree
      rw [← added, ← level3Same]
      rfl
    have isFreed : ∀ bucket, cache'.freed bucket = true ↔
        cache.freed bucket = true ∨ (cache.queue index = some bucket ∧ (cache.buckets bucket).roundrobinCount = 1) := by
      intro bucket
      rw [← freed bucket, ← added]
      rfl
    refine ⟨⟨fun other => ?_, fun slot bucket isQueued => ?_, fun bucket isFreed' => ?_, fun bucket inTree' => ?_⟩, isFreed⟩
    · have written := slotCount_write inside cache.queue level3 other
      have count : (cache'.buckets other).roundrobinCount =
          (vacated.buckets other).roundrobinCount + if level3 = other then 1 else 0 := by
        rw [← added]
        unfold BucketCache.setCount BucketCache.setBucket
        dsimp only
        by_cases here : other = level3
        · rw [if_pos here, if_pos here.symm, here]
        · rw [if_neg here, if_neg (Ne.symm here), add_zero]
      have queue : cache'.queue = write cache.queue index level3 := by
        rw [← added, ← queueSame]
        rfl
      rw [count, counts, counted.counts, queue]
      split_ifs at written ⊢ <;> omega
    · have queue : cache'.queue = write cache.queue index level3 := by
        rw [← added, ← queueSame]
        rfl
      rw [queue] at isQueued
      by_cases here : slot = index
      · rw [here, write_self, Option.some.injEq] at isQueued
        rw [inTreeSame, ← isQueued]
        exact inTree
      · rw [write_other level3 here] at isQueued
        exact (inTreeSame bucket).mpr (counted.inTree slot bucket isQueued)
    · rcases (isFreed bucket).mp isFreed' with before | ⟨isQueued, _⟩
      · exact (inTreeSame bucket).mpr (counted.freedInTree bucket before)
      · exact (inTreeSame bucket).mpr (counted.inTree index bucket isQueued)
    · have next : cache'.nextBucket = cache.nextBucket := by
        rw [← added, ← nextSame]
        rfl
      rw [next]
      exact counted.fresh bucket ((inTreeSame bucket).mp inTree')

/-! ### What a lookup does -/

/-- **Whether a lookup makes an entry**: it has none yet, and all allocations on the way succeed. -/
def makesEntry (allocations : BucketAllocations) (sectorSize : Nat) (cache : BucketCache) (pos : Int) : Bool :=
  match cacheSlot sectorSize pos with
  | none => false
  | some slot =>
      (cache.level1 slot.level1 || allocations.level1) && (cache.level2 slot.level1 slot.level2 || allocations.level2) &&
        allocations.sector &&
        match cache.level3 slot.level1 slot.level2 slot.level3 with
        | some level3 => !(cache.buckets level3).sectors slot.sector
        | none => allocations.level3

theorem level1Get_found (allocations : BucketAllocations) (cache : BucketCache) (index : Nat) :
    (diskstreamerCacheBucketLevel1Get allocations cache index).1 = (cache.level1 index || allocations.level1) := by
  unfold diskstreamerCacheBucketLevel1Get
  cases cache.level1 index <;> cases allocations.level1 <;> rfl

theorem level2Get_found (allocations : BucketAllocations) (cache : BucketCache) (level1 index : Nat) :
    (diskstreamerCacheBucketLevel2Get allocations cache level1 index).1 =
      (cache.level2 level1 index || allocations.level2) := by
  unfold diskstreamerCacheBucketLevel2Get
  cases cache.level2 level1 index <;> cases allocations.level2 <;> rfl

/-- The bucket of a lookup, and whether the sector has an entry in it. -/
theorem level3Get_found (allocations : BucketAllocations) (cache : BucketCache) (level1 level2 index sector : Nat) :
    ((diskstreamerCacheBucketLevel3Get allocations cache level1 level2 index).1 = none ∧
        cache.level3 level1 level2 index = none ∧ allocations.level3 = false) ∨
      ∃ level3, (diskstreamerCacheBucketLevel3Get allocations cache level1 level2 index).1 = some level3 ∧
        (!(((diskstreamerCacheBucketLevel3Get allocations cache level1 level2 index).2.buckets level3).sectors sector)) =
          match cache.level3 level1 level2 index with
          | some level3 => !(cache.buckets level3).sectors sector
          | none => allocations.level3 := by
  unfold diskstreamerCacheBucketLevel3Get
  cases known : cache.level3 level1 level2 index with
  | some level3 => exact Or.inr ⟨level3, rfl, rfl⟩
  | none =>
      dsimp only
      cases allocations.level3 with
      | false => exact Or.inl ⟨rfl, rfl, rfl⟩
      | true =>
          refine Or.inr ⟨cache.nextBucket, rfl, ?_⟩
          have new : ((cache.setBucket cache.nextBucket ⟨fun _ => false, 0⟩).buckets cache.nextBucket).sectors sector =
              false := by
            unfold BucketCache.setBucket
            dsimp only
            rw [if_pos rfl]
          exact congrArg not new

/-- **One lookup** only adds to the tree, or makes an entry and adds its bucket to the queue. -/
theorem cacheFindBuckets_cases (counted : QueueCounted cache) {allocations : BucketAllocations} {sectorSize : Nat} {pos res : Int}
    (result : diskstreamerCacheFindBuckets allocations sectorSize cache pos = some (res, cache')) :
    (makesEntry allocations sectorSize cache pos = false ∧ Grows cache cache') ∨
      (makesEntry allocations sectorSize cache pos = true ∧ ∃ grown level3, Grows cache grown ∧ grown.InTree level3 ∧
        diskstreamerCacheRoundRobinAdd grown level3 = some cache') := by
  unfold diskstreamerCacheFindBuckets at result
  unfold makesEntry
  cases inArrays : cacheSlot sectorSize pos with
  | none =>
      rw [inArrays] at result
      cases result
  | some slot =>
      rw [inArrays] at result
      dsimp only at result ⊢
      obtain ⟨level1, tree1⟩ := level1Get_tree allocations cache slot.level1
      rw [level1Get_found, tree1] at result
      cases made1 : cache.level1 slot.level1 || allocations.level1 with
      | false =>
          simp only [made1, Bool.not_false, if_true, Option.some.injEq, Prod.mk.injEq] at result
          exact Or.inl ⟨rfl, result.2 ▸ counted.withLevels level1 cache.level2⟩
      | true =>
          simp only [made1, Bool.not_true, Bool.false_eq_true, if_false] at result
          obtain ⟨level2, tree2⟩ := level2Get_tree allocations { cache with level1 := level1 } slot.level1 slot.level2
          rw [level2Get_found, tree2] at result
          have grows12 := counted.withLevels level1 level2
          cases made2 : cache.level2 slot.level1 slot.level2 || allocations.level2 with
          | false =>
              simp only [made2, Bool.not_false, if_true, Option.some.injEq, Prod.mk.injEq] at result
              exact Or.inl ⟨rfl, result.2 ▸ grows12⟩
          | true =>
              simp only [made2, Bool.not_true, Bool.false_eq_true, if_false] at result
              obtain ⟨grows3, inTree⟩ := level3Get_grows grows12.counted allocations slot.level1 slot.level2 slot.level3
              have found := level3Get_found allocations { cache with level1 := level1, level2 := level2 } slot.level1
                slot.level2 slot.level3 slot.sector
              generalize diskstreamerCacheBucketLevel3Get allocations { cache with level1 := level1, level2 := level2 }
                slot.level1 slot.level2 slot.level3 = got at *
              obtain ⟨level3, cache3⟩ := got
              have grows := grows12.trans grows3
              rcases found with ⟨none_, unknown, fails⟩ | ⟨bucket, isBucket, isNew⟩
              · dsimp only at none_
                rw [none_, Option.some.injEq, Prod.mk.injEq] at result
                rw [unknown, fails]
                refine Or.inl ⟨by simp, result.2 ▸ grows⟩
              · dsimp only at isBucket isNew grows
                subst isBucket
                dsimp only at result
                rw [← isNew]
                cases entry : (cache3.buckets bucket).sectors slot.sector with
                | true =>
                    rw [if_pos entry, Option.some.injEq, Prod.mk.injEq] at result
                    exact Or.inl ⟨by simp, result.2 ▸ grows⟩
                | false =>
                    rw [if_neg (by rw [entry]; decide)] at result
                    cases makes : allocations.sector with
                    | false =>
                        rw [if_neg (by rw [makes]; decide), Option.some.injEq, Prod.mk.injEq] at result
                        exact Or.inl ⟨by simp, result.2 ▸ grows⟩
                    | true =>
                        rw [if_pos makes, Option.map_eq_some_iff] at result
                        obtain ⟨added, isAdded, same⟩ := result
                        rw [Prod.mk.injEq] at same
                        rw [same.2] at isAdded
                        refine Or.inr ⟨rfl, _, bucket, ?_, ?_, isAdded⟩
                        · exact grows.trans (setBucket_grows grows.counted rfl)
                        · exact inTree bucket rfl

end Lookups

/-! ### Runs of lookups -/

/-- A lookup: which of its allocations succeed, and the position. -/
structure BucketLookup where
  allocations : BucketAllocations
  pos : Int

namespace BucketCache

/-- **One lookup** that returns. -/
def step (sectorSize : Nat) (cache : BucketCache) (lookup : BucketLookup) (cache' : BucketCache) : Prop :=
  ∃ res, diskstreamerCacheFindBuckets lookup.allocations sectorSize cache lookup.pos = some (res, cache')

/-- Runs start with an empty cache. -/
def Initial (cache : BucketCache) : Prop := cache = .new

/-- **The round robin is sound**: counts are numbers of slots, and nothing refers to a freed bucket. -/
structure RoundRobinSound (cache : BucketCache) : Prop where
  counts : ∀ bucket, (cache.buckets bucket).roundrobinCount = slotCount diskStreamCacheRoundrobinMax cache.queue bucket
  notInTree : ∀ bucket, cache.freed bucket = true → ∀ level1 level2 index, cache.level3 level1 level2 index ≠ some bucket
  notQueued : ∀ bucket, cache.freed bucket = true → ∀ index < diskStreamCacheRoundrobinMax, cache.queue index ≠ some bucket

/-- **A lookup that frees nothing**: it makes no entry, or the bucket in the next slot of the queue is in another
slot, too. -/
def keepsBuckets (sectorSize : Nat) (cache : BucketCache) (lookup : BucketLookup) : Prop :=
  makesEntry lookup.allocations sectorSize cache lookup.pos = true → ∀ bucket, ¬ cache.Evicts bucket

end BucketCache

section Runs

variable {sectorSize : Nat} {cache cache' : BucketCache} {lookup : BucketLookup}

/-- **Every lookup keeps the queue counted**, and what it frees. -/
theorem queueCounted_step (counted : QueueCounted cache) (taken : cache.step sectorSize lookup cache') :
    QueueCounted cache' ∧ ∀ bucket, cache'.freed bucket = true ↔ cache.freed bucket = true ∨
      (makesEntry lookup.allocations sectorSize cache lookup.pos = true ∧ cache.Evicts bucket) := by
  obtain ⟨res, result⟩ := taken
  rcases cacheFindBuckets_cases counted result with ⟨noEntry, grows⟩ | ⟨entry, grown, level3, grows, inTree, added⟩
  · refine ⟨grows.counted, fun bucket => ?_⟩
    rw [grows.freed, noEntry]
    exact ⟨Or.inl, fun freed => freed.resolve_right fun makes => absurd makes.1 Bool.false_ne_true⟩
  · obtain ⟨counted', freed⟩ := roundRobinAdd_counts grows.counted inTree added
    refine ⟨counted', fun bucket => ?_⟩
    rw [freed, grows.freed, grows.evicts_iff counted, entry]
    exact or_congr_right (iff_and_self.mpr fun _ => rfl)

/-- In every run, the counts are the numbers of slots of the queue. -/
theorem queueCounted_of_reachable (reached : Reachable (BucketCache.step sectorSize) BucketCache.Initial cache) :
    QueueCounted cache :=
  reached.invariant QueueCounted (fun cache begins => by
    rw [show cache = .new from begins]
    exact queueCounted_new) fun _ _ _ counted taken => (queueCounted_step counted taken).1

/-- **Sound means that nothing was freed**, since a freed bucket stays in its level-2 bucket. -/
theorem cacheSound_iff (counted : QueueCounted cache) :
    cache.RoundRobinSound ↔ ∀ bucket, ¬ cache.freed bucket = true := by
  constructor
  · intro sound bucket isFreed
    obtain ⟨level1, level2, index, isBucket⟩ := counted.freedInTree bucket isFreed
    exact sound.notInTree bucket isFreed level1 level2 index isBucket
  · exact fun nothing => ⟨counted.counts, fun bucket isFreed => absurd isFreed (nothing bucket),
      fun bucket isFreed => absurd isFreed (nothing bucket)⟩

/-- A sound cache stays sound exactly when the lookup frees nothing. -/
theorem cacheSound_step (counted : QueueCounted cache) (sound : cache.RoundRobinSound)
    (taken : cache.step sectorSize lookup cache') :
    cache'.RoundRobinSound ↔ cache.keepsBuckets sectorSize lookup := by
  obtain ⟨counted', freed⟩ := queueCounted_step counted taken
  have nothing := (cacheSound_iff counted).mp sound
  rw [cacheSound_iff counted']
  constructor
  · exact fun nothing' entry bucket evicts => nothing' bucket ((freed bucket).mpr (Or.inr ⟨entry, evicts⟩))
  · intro keeps bucket isFreed
    rcases (freed bucket).mp isFreed with before | ⟨entry, evicts⟩
    · exact nothing bucket before
    · exact keeps entry bucket evicts

end Runs

/-- **The round robin stays sound** in every run whose lookups free nothing, and a lookup that frees a bucket
leaves it unsound. -/
theorem cacheSound_of_reachable (sectorSize : Nat) (cache : BucketCache)
    (reached : Reachable (Guarded (BucketCache.keepsBuckets sectorSize) (BucketCache.step sectorSize))
      BucketCache.Initial cache) :
    cache.RoundRobinSound ∧ ∀ lookup cache', cache.step sectorSize lookup cache' →
      (cache'.RoundRobinSound ↔ cache.keepsBuckets sectorSize lookup) := by
  have counted := queueCounted_of_reachable reached.of_guarded
  have sound : QueueCounted cache ∧ cache.RoundRobinSound := by
    refine reached.invariant (fun cache => QueueCounted cache ∧ cache.RoundRobinSound) (fun cache begins => ?_)
      fun cache lookup cache' sound taken => ?_
    · rw [begins]
      exact ⟨queueCounted_new, (cacheSound_iff queueCounted_new).mpr fun _ => Bool.false_ne_true⟩
    · exact ⟨(queueCounted_step sound.1 taken.2).1, (cacheSound_step sound.1 sound.2 taken.2).mpr taken.1⟩
  exact ⟨sound.2, fun lookup cache' taken => cacheSound_step counted sound.2 taken⟩

/-- The empty cache is sound. -/
theorem cacheSound_new :
    Reachable (Guarded (BucketCache.keepsBuckets 512) (BucketCache.step 512)) BucketCache.Initial .new ∧
      BucketCache.new.RoundRobinSound :=
  ⟨.start rfl, (cacheSound_of_reachable 512 .new (.start rfl)).1⟩

/-! ### One bucket more than the queue has slots -/

/-- All allocations succeed. -/
def allAllocated : BucketAllocations := ⟨true, true, true, true⟩

/-- The lookup of the first sector of a bucket. -/
def bucketLookup (bucket : Nat) : BucketLookup := ⟨allAllocated, (bucket * 64 * 512 : Nat)⟩

theorem cacheSlot_bucket {bucket : Nat} (low : bucket ≤ 1024) :
    cacheSlot 512 ((bucket * 64 * 512 : Nat) : Int) = some ⟨0, bucket / 1024, bucket % 1024, 0⟩ := by
  rw [cacheSlot_hardware (by decide) (by omega), hardwareSlot, Option.some.injEq, CacheSlot.mk.injEq]
  omega

/-- A cache whose first buckets have one entry each. -/
structure Filled (count : Nat) (cache : BucketCache) : Prop where
  pos : cache.pos = count
  next : cache.nextBucket = count
  queue : ∀ index, cache.queue index = if index < count then some index else none
  counts : ∀ bucket < count, (cache.buckets bucket).roundrobinCount = 1
  unknown : ∀ bucket, count ≤ bucket → cache.level3 0 (bucket / 1024) (bucket % 1024) = none

theorem filled_new : Filled 0 .new where
  pos := rfl
  next := rfl
  queue _ := rfl
  counts _ below := absurd below (Nat.not_lt_zero _)
  unknown _ _ := rfl

/-- The cache with a new bucket, whose first sector has an entry. -/
def opened (cache : BucketCache) (level1 : Nat → Bool) (level2 : Nat → Nat → Bool) (count : Nat) : BucketCache :=
  { cache with
    level1 := level1
    level2 := level2
    level3 := fun other other' other'' =>
      if other = 0 ∧ other' = count / 1024 ∧ other'' = count % 1024 then some count else cache.level3 other other' other''
    buckets := fun other => if other = count then ⟨fun sector => if sector = 0 then true else false, 0⟩ else cache.buckets other
    nextBucket := count + 1 }

/-- The lookup of a new bucket. -/
theorem bucketLookup_adds {count : Nat} {cache : BucketCache} (filled : Filled count cache) (low : count ≤ 1024) :
    ∃ level1 level2, diskstreamerCacheFindBuckets allAllocated 512 cache (bucketLookup count).pos =
      (diskstreamerCacheRoundRobinAdd (opened cache level1 level2 count) count).map
        fun cache => (diskStreamerCacheStatusNewCacheEntry, cache) := by
  obtain ⟨level1, tree1⟩ := level1Get_tree allAllocated cache 0
  obtain ⟨level2, tree2⟩ := level2Get_tree allAllocated { cache with level1 := level1 } 0 (count / 1024)
  have get3 : diskstreamerCacheBucketLevel3Get allAllocated { cache with level1 := level1, level2 := level2 } 0 (count / 1024)
      (count % 1024) = (some count, { cache with
        level1 := level1
        level2 := level2
        buckets := fun other => if other = count then ⟨fun _ => false, 0⟩ else cache.buckets other
        level3 := fun other other' other'' =>
          if other = 0 ∧ other' = count / 1024 ∧ other'' = count % 1024 then some count else cache.level3 other other' other''
        nextBucket := count + 1 }) := by
    unfold diskstreamerCacheBucketLevel3Get
    dsimp only
    rw [filled.unknown count le_rfl]
    dsimp only
    rw [filled.next]
    rfl
  refine ⟨level1, level2, ?_⟩
  unfold diskstreamerCacheFindBuckets
  rw [show (bucketLookup count).pos = ((count * 64 * 512 : Nat) : Int) from rfl, cacheSlot_bucket low]
  dsimp only
  rw [level1Get_found, tree1, level2Get_found, tree2, get3, if_neg (by simp [allAllocated]), if_neg (by simp [allAllocated])]
  dsimp only
  refine (if_neg (by rw [if_pos rfl]; exact Bool.false_ne_true)).trans ((if_pos rfl).trans ?_)
  congr 2
  unfold BucketCache.setBucket opened
  dsimp only
  congr 1
  funext other
  by_cases here : other = count
  · rw [if_pos here, if_pos here, if_pos rfl]
  · rw [if_neg here, if_neg here, if_neg here]

theorem index_natCast (count : Nat) :
    ((count : Int).tmod diskStreamCacheRoundrobinMax) = (count % diskStreamCacheRoundrobinMax : Nat) :=
  (Int.ofNat_tmod count diskStreamCacheRoundrobinMax).symm

/-- Another bucket is filled. -/
theorem filled_step {count : Nat} {cache : BucketCache} (filled : Filled count cache) (low : count < 1024) :
    ∃ cache', cache.step 512 (bucketLookup count) cache' ∧ Filled (count + 1) cache' := by
  obtain ⟨level1, level2, find⟩ := bucketLookup_adds filled low.le
  have position : (opened cache level1 level2 count).pos = count := filled.pos
  have free : (opened cache level1 level2 count).queue count = none := by
    change cache.queue count = none
    rw [filled.queue, if_neg (Nat.lt_irrefl count)]
  have inside : count % diskStreamCacheRoundrobinMax = count := Nat.mod_eq_of_lt low
  have add : ∃ added, diskstreamerCacheRoundRobinAdd (opened cache level1 level2 count) count = some added ∧
      Filled (count + 1) added := by
    unfold diskstreamerCacheRoundRobinAdd
    dsimp only
    rw [position, index_natCast, inside, if_neg (by omega), Int.toNat_natCast, free]
    refine ⟨_, rfl, ?_, rfl, fun index => ?_, fun bucket below => ?_, fun bucket above => ?_⟩
    · change toInt32 ((opened cache level1 level2 count).pos + 1) = _
      rw [position, toInt32_of_bounds (by omega) (by omega)]
      rfl
    · change (if index = count then some count else cache.queue index) = _
      rw [filled.queue]
      by_cases here : index = count
      · rw [if_pos here, if_pos (by omega), here]
      · rw [if_neg here]
        by_cases before : index < count
        · rw [if_pos before, if_pos (by omega)]
        · rw [if_neg before, if_neg (by omega)]
    · unfold BucketCache.setCount BucketCache.setBucket opened
      dsimp only
      by_cases here : bucket = count
      · rw [if_pos here, if_pos rfl]
        rfl
      · rw [if_neg here, if_neg here]
        exact filled.counts bucket (by omega)
    · refine (if_neg ?_).trans (filled.unknown bucket (by omega))
      omega
  obtain ⟨added, isAdded, filled'⟩ := add
  refine ⟨added, ⟨diskStreamerCacheStatusNewCacheEntry, ?_⟩, filled'⟩
  rw [show (bucketLookup count).allocations = allAllocated from rfl, find, isAdded]
  rfl

/-- The first 1024 buckets free nothing. -/
theorem filled_reachable (count : Nat) (low : count ≤ 1024) :
    ∃ cache, Reachable (BucketCache.step 512) BucketCache.Initial cache ∧ Filled count cache := by
  induction count with
  | zero => exact ⟨.new, .start rfl, filled_new⟩
  | succ count hyp =>
      obtain ⟨cache, reached, filled⟩ := hyp (by omega)
      obtain ⟨cache', taken, filled'⟩ := filled_step filled low
      exact ⟨cache', .next _ reached taken, filled'⟩

/-- **The next bucket frees the first one**, which is still in its level-2 bucket. -/
theorem firstBucket_freed :
    ∃ cache, Reachable (BucketCache.step 512) BucketCache.Initial cache ∧ ¬ cache.RoundRobinSound := by
  obtain ⟨cache, reached, filled⟩ := filled_reachable 1024 le_rfl
  obtain ⟨level1, level2, find⟩ := bucketLookup_adds filled le_rfl
  have evicts : cache.Evicts 0 := by
    unfold BucketCache.Evicts
    rw [filled.pos, index_natCast, Int.toNat_natCast, filled.queue]
    exact ⟨rfl, filled.counts 0 (by decide)⟩
  have makes : makesEntry allAllocated 512 cache (bucketLookup 1024).pos = true := by
    unfold makesEntry
    rw [show (bucketLookup 1024).pos = ((1024 * 64 * 512 : Nat) : Int) from rfl, cacheSlot_bucket le_rfl]
    dsimp only
    rw [filled.unknown 1024 le_rfl]
    simp [allAllocated]
  have adds : (diskstreamerCacheRoundRobinAdd (opened cache level1 level2 1024) 1024).isSome := by
    have position : (opened cache level1 level2 1024).pos = (1024 : Nat) := filled.pos
    unfold diskstreamerCacheRoundRobinAdd
    dsimp only
    rw [position, index_natCast, if_neg (by omega)]
    rfl
  obtain ⟨cache', isAdded⟩ := Option.isSome_iff_exists.mp adds
  have taken : cache.step 512 (bucketLookup 1024) cache' := by
    refine ⟨diskStreamerCacheStatusNewCacheEntry, ?_⟩
    rw [show (bucketLookup 1024).allocations = allAllocated from rfl, find, isAdded]
    rfl
  obtain ⟨counted', freed⟩ := queueCounted_step (queueCounted_of_reachable reached) taken
  exact ⟨cache', .next _ reached taken, fun sound =>
    (cacheSound_iff counted').mp sound 0 ((freed 0).mpr (Or.inr ⟨makes, evicts⟩))⟩

end PeachOS
