import Vllm.Mm.LRUShape
import Vllm.Mm.MergeRoom

/-! The caches of the front end and the engine core stay mirrored as long as both see the
same items in the same order. -/
namespace Vllm
open List hiding next
open Py SenderCache MmCaches
variable {D I P : Type} {proc : MmProcessor D I P} {fuel : Nat}
  {picked : List (String × Option (I × P))} {req : MmRequest D}

structure Paired (proc : MmProcessor D I P) (sender : SenderCache P)
    (receiver : ReceiverCache I) : Prop where
  alike : sender.Alike receiver
  senderSize : sender.getsizeof = (·.itemSize)
  receiverSize : receiver.getsizeof = proc.getItemSize

theorem callAll_length (ran : callAll call state args = some (last, .ok results)) :
    results.length = args.length := by
  induction args generalizing state results with
  | nil =>
    cases ran
    rfl
  | cons arg rest ih =>
    obtain ⟨_, _, _, -, later, rfl⟩ := callAll_cons ran
    rw [length_cons, length_cons, ih later]

section Pair
variable {sender next : SenderCache P} {receiver : ReceiverCache I} {features : List (MmFeature I)}
  (paired : Paired proc sender receiver)
include paired

theorem Paired.contains (mmHash : String) : receiver.contains mmHash = sender.contains mmHash := by
  have alike : sender.shape = receiver.shape := paired.alike
  rw [← LRUCache.shape_contains receiver, ← alike, LRUCache.shape_contains]

theorem Paired.touch (mmHash : String) :
    Paired proc (sender.touch mmHash) (receiver.touch mmHash) := by
  constructor
  · rw [LRUCache.Alike, LRUCache.shape_touch, LRUCache.shape_touch, paired.alike]
  · rw [LRUCache.touch_eq]
    exact paired.senderSize
  · rw [LRUCache.touch_eq]
    exact paired.receiverSize

/-- An item that the sender replaces by `None` is in the cache of the receiver. -/
theorem Paired.update
    (ran : getAndUpdateItem proc fuel sender mmItem mmHash = some (next, .ok
      out)) : ∃ after item, ReceiverCache.getAndUpdateItem fuel receiver out.1 mmHash =
      some (after, .ok item) ∧ Paired proc next after := by
  obtain ⟨found, read, got, hit, size, shape⟩ := sender.get_eq mmHash
  obtain ⟨found', read', got', hit', size', shape'⟩ := receiver.get_eq mmHash
  rw [paired.contains] at hit' shape'
  have readPaired : Paired proc read read' := by
    refine ⟨?_, size.trans paired.senderSize, size'.trans paired.receiverSize⟩
    have alike : sender.shape = receiver.shape := paired.alike
    rw [LRUCache.Alike, shape, shape', alike]
  simp only [getAndUpdateItem, got] at ran
  simp only [ReceiverCache.getAndUpdateItem, got']
  cases found with
  | some cached =>
    cases ran
    rw [← hit] at hit'
    obtain ⟨item, rfl⟩ := Option.isSome_iff_exists.mp hit'
    exact ⟨read', item, rfl, readPaired⟩
  | none =>
    rw [← hit] at hit'
    have miss : found' = none := Option.isSome_eq_false_iff.mp hit' |> Option.isNone_iff_eq_none.mp
    subst miss
    cases mmItem with
    | none => cases ran
    | some entry =>
      obtain ⟨item, promptUpdates⟩ := entry
      dsimp only at ran
      have sent : read.shape.put fuel mmHash
          (read.getsizeof ⟨proc.getItemSize item, promptUpdates⟩) = _ :=
        LRUCache.shape_put fuel _
      have kept : read'.shape.put fuel mmHash (read'.getsizeof item) = _ :=
        LRUCache.shape_put fuel item
      have alike : read.shape = read'.shape := readPaired.alike
      rw [readPaired.senderSize] at sent
      rw [readPaired.receiverSize, ← alike, sent] at kept
      cases put : read.put fuel mmHash ⟨proc.getItemSize item, promptUpdates⟩ with
      | none =>
        rw [put] at ran
        cases ran
      | some result =>
        obtain ⟨_, error⟩ := result
        rw [put] at ran
        cases error with
        | some e => cases ran
        | none =>
          cases ran
          cases put' : read'.put fuel mmHash item with
          | none =>
            rw [put, put'] at kept
            cases kept
          | some result' =>
            obtain ⟨stored', _⟩ := result'
            rw [put, put', Option.map_some, Option.map_some, Option.some.injEq,
              Prod.mk.injEq] at kept
            obtain ⟨same, none⟩ := kept
            subst none
            refine ⟨stored', item, by simp [put'], same, ?_, ?_⟩
            · exact (LRUCache.put_getsizeof put).trans readPaired.senderSize
            · exact (LRUCache.put_getsizeof put').trans readPaired.receiverSize

theorem Paired.updates
    (ran : callAll (fun now entry => getAndUpdateItem proc fuel now entry.2
      entry.1) sender picked = some (next, .ok outs))
    (same : features.map (fun feat => (ReceiverCache.cacheKey feat, feat.data)) =
      (picked.zip outs).map (fun entry => (entry.1.1, entry.2.1))) :
    ∃ after items, callAll (fun now feat => ReceiverCache.getAndUpdateItem fuel now feat.data
      (ReceiverCache.cacheKey feat)) receiver features = some (after, .ok items) ∧
        Paired proc next after := by
  induction picked generalizing sender receiver outs features with
  | nil =>
    cases ran
    rw [zip_nil_left, map_nil, map_eq_nil_iff] at same
    subst same
    exact ⟨receiver, [], rfl, paired⟩
  | cons entry rest ih =>
    obtain ⟨_, _, _, first, later, rfl⟩ := callAll_cons ran
    cases features with
    | nil => cases same
    | cons feat features =>
      rw [zip_cons_cons, map_cons, map_cons, cons.injEq, Prod.mk.injEq] at same
      obtain ⟨⟨key, data⟩, same⟩ := same
      obtain ⟨after, item, updated, pairedAfter⟩ := paired.update first
      obtain ⟨final, items, ran, pairedFinal⟩ := ih pairedAfter later same
      refine ⟨final, item :: items, ?_, pairedFinal⟩
      simp only [callAll, key, data, updated, ran]

theorem Paired.touches (same : features.map ReceiverCache.cacheKey = picked.map Prod.fst) :
    Paired proc (picked.foldl (fun now entry => now.touch entry.1) sender)
      (features.foldl (fun now feat => now.touch (ReceiverCache.cacheKey feat)) receiver) := by
  induction picked generalizing sender receiver features with
  | nil =>
    rw [map_nil, map_eq_nil_iff] at same
    subst same
    exact paired
  | cons entry rest ih =>
    cases features with
    | nil => cases same
    | cons feat features =>
      rw [map_cons, map_cons, cons.injEq] at same
      rw [foldl_cons, foldl_cons, same.1]
      exact ih (paired.touch entry.1) same.2

theorem Paired.merge
    (ran : mergeMmKwargs proc fuel sender picked = some (next, .ok outs))
    (same : features.map (fun feat => (ReceiverCache.cacheKey feat, feat.data)) =
      (picked.zip outs).map (fun entry => (entry.1.1, entry.2.1))) :
    ∃ after items, ReceiverCache.getAndUpdateFeatures fuel receiver features =
      some (after, .ok items) ∧ Paired proc next after := by
  have length := callAll_length ran
  have keys : features.map ReceiverCache.cacheKey = picked.map Prod.fst := by
    calc features.map ReceiverCache.cacheKey
        = (features.map (fun feat => (ReceiverCache.cacheKey feat, feat.data))).map
            Prod.fst := by
          rw [map_map]
          rfl
      _ = ((picked.zip outs).map Prod.fst).map Prod.fst := by
          rw [same, map_map, map_map]
          rfl
      _ = picked.map Prod.fst := by
          rw [map_fst_zip (by omega)]
  exact (paired.touches keys).updates ran same

end Pair

section Sender
variable {sender : SenderCache P}

def SenderCache.pick (proc : MmProcessor D I P) (cache : SenderCache P)
    (item : MmDataItem D) : String × Option (I × P) :=
  (item.mmHash, if cache.isCachedItem item.mmHash then none else item.data.map proc.process)

def SenderCache.Supplied (cache : SenderCache P) (items : List (MmDataItem D)) : Prop :=
  ∀ item ∈ items, cache.contains item.mmHash = true ∨ item.data.isSome = true

theorem pickItems_ok (proc : MmProcessor D I P)
    (ran : sender.missingData modality idx items = .ok data) : pickItems
        (items.map (fun item => (item.mmHash, isCachedItem sender item.mmHash)))
        (data.map proc.process) = .ok (items.map (pick proc sender)) ∧
      SenderCache.Supplied sender items := by
  induction items generalizing idx data with
  | nil => exact ⟨rfl, fun item mem => by cases mem⟩
  | cons item rest ih =>
    rw [missingData] at ran
    cases cached : isCachedItem sender item.mmHash with
    | true =>
      rw [if_pos cached] at ran
      obtain ⟨picked, supplied⟩ := ih ran
      constructor
      · rw [map_cons, cached, pickItems, picked]
        simp only [map_cons, pick, cached, if_true]
        rfl
      · exact forall_mem_cons.mpr ⟨.inl cached, supplied⟩
    | false =>
      rw [if_neg (by simp [cached])] at ran
      cases given : item.data with
      | none =>
        rw [given] at ran
        cases ran
      | some content =>
        rw [given] at ran
        obtain ⟨others, later, final⟩ := bind_ok ran
        cases final
        obtain ⟨picked, supplied⟩ := ih later
        constructor
        · rw [map_cons, map_cons, cached, pickItems, picked]
          simp only [map_cons, pick, cached, Bool.false_eq_true, if_false, given]
          rfl
        · exact forall_mem_cons.mpr ⟨.inr (by simp [given]), supplied⟩

theorem pickAll_ok (ran : pickAll proc sender mmItems = .ok picked) :
    picked = (mmItems.flatMap (·.2)).map (pick proc sender) ∧
      SenderCache.Supplied sender (mmItems.flatMap (·.2)) := by
  induction mmItems generalizing picked with
  | nil =>
    cases ran
    exact ⟨rfl, fun item mem => by cases mem⟩
  | cons entry rest ih =>
    obtain ⟨first, here, ran⟩ := bind_ok ran
    obtain ⟨others, later, final⟩ := bind_ok ran
    cases final
    obtain ⟨data, missing, here⟩ := bind_ok here
    obtain ⟨mine, supplied⟩ := pickItems_ok proc missing
    rw [mine] at here
    cases here
    obtain ⟨theirs, suppliedLater⟩ := ih later
    rw [flatMap_cons, map_append, theirs]
    refine ⟨rfl, ?_⟩
    intro item mem
    rcases mem_append.mp mem with mem | mem
    · exact supplied item mem
    · exact suppliedLater item mem

/-- What a hash takes in the cache: what was recorded for it, or the size of the item
that is processed for it. -/
def SenderCache.demand (proc : MmProcessor D I P) (cache : SenderCache P)
    (items : List (MmDataItem D)) (mmHash : String) : Nat :=
  if cache.contains mmHash then cache.sizeOf mmHash
  else match items.find? (fun item => item.mmHash = mmHash) with
    | none => 0
    | some item => item.data.elim 0 (fun data => proc.getItemSize (proc.process data).1)

/-- Items that fit together are merged. -/
theorem merge_fits (sound : sender.Sound) (unpinned : sender.pinnedItems = [])
    (exact : sender.OrderExact) (measure : sender.getsizeof = (·.itemSize))
    (supplied : SenderCache.Supplied sender walk)
    (fits : ((walk.map (·.mmHash)).dedup.map (demand proc sender walk)).sum ≤
      sender.capacity) : ∃ (last : SenderCache P) (outs : List (Option I × P)),
    (∀ fuel, mergeMmKwargs proc fuel sender
        (walk.map (pick proc sender)) = some (last, .ok outs) ∨
      mergeMmKwargs proc fuel sender
        (walk.map (pick proc sender)) = none) ∧
      last.Sound ∧ last.pinnedItems = [] ∧ last.OrderExact := by
  have keys : (walk.map (pick proc sender)).map Prod.fst =
      walk.map (·.mmHash) := by
    rw [map_map]
    rfl
  have consistent : ∀ entry ∈ walk.map (pick proc sender),
      entry.2 = none ↔ sender.contains entry.1 = true := by
    intro entry mem
    obtain ⟨item, inWalk, rfl⟩ := mem_map.mp mem
    have given := supplied item inWalk
    cases inside : sender.contains item.mmHash <;>
      simp_all [pick, isCachedItem, Option.isSome_iff_ne_none]
  have demanded : ∀ mmHash item, sender.contains mmHash = false →
      (walk.map (pick proc sender)).find? (fun entry => entry.1 = mmHash) =
        some (mmHash, some item) →
      proc.getItemSize item.1 = demand proc sender walk mmHash := by
    intro mmHash item absent found
    rw [find?_map, Option.map_eq_some_iff] at found
    obtain ⟨first, found, picked⟩ := found
    have found : walk.find? (fun item => item.mmHash = mmHash) = some first := found
    rw [demand, if_neg (by simp [absent]), found]
    cases given : first.data <;>
      simp_all [pick, isCachedItem]
  have room := LRUCache.inserted_fits sound exact (fun mmHash inside => by
    rw [demand, if_pos inside]) demanded
    (fun mmHash counted => (consistent _ counted).mp rfl) (by rwa [keys])
  obtain ⟨last, outs, least, returns, lastSound, lastUnpinned, lastExact⟩ :=
    LRUCache.merge_returns (fun item => ⟨proc.getItemSize item.1, item.2⟩)
      (fun found => (none, found.promptUpdates)) (fun item => (some item.1, item.2)) sound unpinned consistent
      (fun item => by rw [measure]) room
  refine ⟨last, outs, fun fuel => ?_, lastSound, lastUnpinned, lastExact exact⟩
  rw [mergeMmKwargs_eq]
  exact (returns fuel).imp_right And.right

end Sender

section
variable (proc : MmProcessor D I P) (caches : MmCaches I P)

/-- A request that both ends handle alike: the placeholders lie in the prompt in the
order in which the front end walks the items, each hash is its own cache key, and the
items fit into the cache together. A request that is rejected has no items. -/
def MmCaches.Agrees (req : MmRequest D) : Prop :=
  if req.accepted then
    req.walk.Pairwise (fun one two => one.offset ≤ two.offset) ∧
    (∀ mmHash ∈ req.senderHashes, mmHash ≠ "" ∨ req.loraName = none) ∧
    (req.senderHashes.dedup.map
      (demand proc caches.sender req.walk)).sum ≤ caches.sender.capacity
  else req.walk = []

structure Mirrored : Prop where
  paired : Paired proc caches.sender caches.receiver
  sound : caches.sender.Sound
  unpinned : caches.sender.pinnedItems = []
  exact : caches.sender.OrderExact

/-- In the order of the walk, the features are made for the items that were sent. -/
theorem features_keys (sender : SenderCache P)
    (ordered : req.walk.Pairwise (fun one two => one.offset ≤ two.offset))
    (named : ∀ mmHash ∈ req.senderHashes, mmHash ≠ "" ∨ req.loraName = none)
    {kwargs : List (Option I × P)} (length : kwargs.length = req.walk.length) :
    (req.features kwargs).map (fun feat => (ReceiverCache.cacheKey feat, feat.data)) =
      ((req.walk.map (pick proc sender)).zip kwargs).map
        (fun entry => (entry.1.1, entry.2.1)) := by
  have sorted : (req.walk.zip kwargs).Pairwise (fun one two => one.1.offset ≤ two.1.offset) := by
    have firsts : ((req.walk.zip kwargs).map Prod.fst).Pairwise
        (fun one two => one.offset ≤ two.offset) := by
      rw [map_fst_zip (by omega)]
      exact ordered
    rwa [pairwise_map] at firsts
  rw [MmRequest.features, sorted.insertionSort_eq, map_map, zip_map_left, map_map]
  apply map_congr_left
  intro entry mem
  have key : ReceiverCache.cacheKey
      { data := entry.2.1
        identifier := req.getMmIdentifier entry.1.mmHash
        mmHash := some entry.1.mmHash } = entry.1.mmHash := by
    unfold ReceiverCache.cacheKey
    split
    · rename_i same
      cases same
      split
      · rename_i empty
        rcases named _ (mem_map_of_mem (of_mem_zip mem).1) with nonempty | plain
        · exact absurd empty nonempty
        · simp only [MmRequest.getMmIdentifier, plain]
      · rfl
    · rename_i none
      cases none
  exact Prod.ext key rfl

end

theorem Mirrored.exec (fuel : Nat) {caches : MmCaches I P} (mirrored : Mirrored proc caches)
    (agrees : caches.Agrees proc req) :
    exec proc fuel caches req = .error .outOfFuel ∨
      ∃ next, exec proc fuel caches req = .ok next ∧ Mirrored proc next := by
  unfold MmCaches.exec cachedApply
  cases pick : pickAll proc caches.sender req.mmItems with
  | error e => exact .inr ⟨_, rfl, mirrored⟩
  | ok picked =>
    obtain ⟨rfl, supplied⟩ := pickAll_ok pick
    have walk : req.mmItems.flatMap (·.2) = req.walk := rfl
    rw [walk] at supplied ⊢
    unfold MmCaches.Agrees at agrees
    cases accepted : req.accepted with
    | false =>
      rw [accepted, if_neg (by simp)] at agrees
      refine .inr ⟨caches, ?_, mirrored⟩
      rw [agrees]
      rfl
    | true =>
      rw [accepted, if_pos rfl] at agrees
      obtain ⟨ordered, named, fits⟩ := agrees
      obtain ⟨sender, kwargs, returns, sound, unpinned, exact⟩ := merge_fits mirrored.sound
        mirrored.unpinned mirrored.exact mirrored.paired.senderSize supplied fits
      dsimp only
      rcases returns fuel with merged | starved
      · rw [merged]
        have same := features_keys proc caches.sender ordered named
          ((callAll_length merged).trans (length_map ..))
        obtain ⟨receiver, items, received, paired⟩ := mirrored.paired.merge merged same
        refine .inr ⟨⟨sender, receiver⟩, ?_, paired, sound, unpinned, exact⟩
        simp only [if_true, received]
      · rw [starved]
        exact .inl rfl

theorem Mirrored.step (mirrored : Mirrored proc caches)
    (agrees : caches.Agrees proc req)
    (ran : MmCaches.exec proc fuel caches req = .ok next) : Mirrored proc next := by
  rcases mirrored.exec fuel agrees with starved | ⟨after, executed, kept⟩
  · rw [starved] at ran
    cases ran
  · rw [executed] at ran
    cases ran
    exact kept

/-- As long as both ends handle every request alike, no item that the front end has
replaced is missing in the engine core, and both caches hold the same hashes. -/
theorem receiver_finds_items (proc : MmProcessor D I P) (capacity fuel : Nat)
    (requests : List (MmRequest D))
    (agrees : Run.AllSteps (exec proc fuel) (MmCaches.Agrees proc)
      (init proc capacity) requests) :
    (∀ e, Run.run (exec proc fuel) (init proc capacity) requests ≠
      .error (.receiver e)) ∧
    ∀ caches, Run.run (exec proc fuel) (init proc capacity) requests =
      .ok caches → ∀ mmHash, caches.receiver.contains mmHash = caches.sender.contains mmHash := by
  have start : Mirrored proc (init proc capacity) := by
    refine ⟨⟨rfl, rfl, rfl⟩, ⟨nodup_nil, ?_, ?_, rfl, Int.natCast_nonneg _⟩, rfl, ?_⟩
    · intro mmHash inside
      cases inside
    · intro mmHash mem
      cases mem
    · intro mmHash
      simp [MmCaches.init, LRUCache.contains, Dict.contains]
  constructor
  · intro e failed
    obtain ⟨_, req, mirrored, allowed, raised⟩ := Run.run_error (Mirrored proc)
      Mirrored.step start agrees failed
    rcases mirrored.exec fuel allowed with starved | ⟨_, executed, _⟩
    · rw [starved] at raised
      cases raised
    · rw [executed] at raised
      cases raised
  · intro caches ran mmHash
    have mirrored := Run.run_invariant (Mirrored proc)
      Mirrored.step start agrees ran
    exact mirrored.paired.contains mmHash

instance (proc : MmProcessor D I P) (caches : MmCaches I P) (req : MmRequest D) :
    Decidable (caches.Agrees proc req) :=
  match accepted : req.accepted with
  | true => decidable_of_iff
      (req.walk.Pairwise (fun one two => one.offset ≤ two.offset) ∧
        (∀ mmHash ∈ req.senderHashes, mmHash ≠ "" ∨ req.loraName = none) ∧
        (req.senderHashes.dedup.map
          (demand proc caches.sender req.walk)).sum ≤ caches.sender.capacity)
      (by simp [MmCaches.Agrees, accepted])
  | false => decidable_of_iff (req.walk.isEmpty = true) (by simp [MmCaches.Agrees, accepted])

def copyProcessor : MmProcessor String String Unit := ⟨fun data => (data, ()), fun _ => 1⟩

/-- An image before a sound in the prompt, and the image again. -/
def imageThenAudio : List (MmRequest String) :=
  [⟨[("image", [⟨"a", some "pixels", 0⟩]), ("audio", [⟨"b", some "sound", 5⟩])], none, true⟩,
    ⟨[("image", [⟨"a", none, 0⟩, ⟨"a", none, 3⟩])], none, true⟩]

theorem receiver_finds_repeated_image :
    Run.AllSteps (exec copyProcessor 9) (MmCaches.Agrees copyProcessor)
      (init copyProcessor 2) imageThenAudio ∧
    (Run.run (exec copyProcessor 9) (init copyProcessor 2)
      imageThenAudio).isOk = true ∧
    ∀ e, Run.run (exec copyProcessor 9) (init copyProcessor 2) imageThenAudio ≠
      .error (.receiver e) := by
  have agrees : Run.AllSteps (exec copyProcessor 9) (MmCaches.Agrees copyProcessor)
      (init copyProcessor 2) imageThenAudio := by decide +kernel
  refine ⟨agrees, by decide +kernel, ?_⟩
  exact (receiver_finds_items copyProcessor 2 9 imageThenAudio agrees).1

/-- A request that is rejected after its image was processed, and the image again. -/
def rejectedImage : List (MmRequest String) :=
  [⟨[("image", [⟨"a", some "pixels", 0⟩])], none, false⟩,
    ⟨[("image", [⟨"a", some "pixels", 0⟩])], none, true⟩]

/-- An image after a sound in the prompt. The front end walks the image first. -/
def audioThenImage : List (MmRequest String) :=
  [⟨[("image", [⟨"a", some "pixels", 5⟩]), ("audio", [⟨"b", some "sound", 0⟩])], none, true⟩,
    ⟨[("image", [⟨"c", some "other", 0⟩])], none, true⟩,
    ⟨[("audio", [⟨"b", some "sound", 0⟩])], none, true⟩]

theorem receiver_misses_items :
    Run.run (exec copyProcessor 9) (init copyProcessor 2) rejectedImage =
      .error (.receiver (.assertionError "Expected a cached item for mm_hash='a'")) ∧
    Run.run (exec copyProcessor 9) (init copyProcessor 2) audioThenImage =
      .error (.receiver (.assertionError "Expected a cached item for mm_hash='b'")) :=
  ⟨error_of_raised (by decide +kernel), error_of_raised (by decide +kernel)⟩

end Vllm
