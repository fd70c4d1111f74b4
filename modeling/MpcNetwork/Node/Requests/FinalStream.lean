import MpcNetwork.Node.Requests.BlockTree

/-! # The stream of final blocks

On a blockchain, the loop that marks blocks final stops at the final head of before.  What
`add_block` reports therefore continues what it reported so far, and nothing is lost to pruning
on the way.
-/

namespace MpcNetwork.Node

open BlockNodes Fallible Relation Runs List

theorem BlockNodes.Climbed.path (climbed : Climbed stop mark nodes start nodes' passed last)
    (keeps : ∀ node, links (mark node) = links node) :
    (passed ++ last.toList).IsChain nodes.Up ∧ (passed ++ last.toList).head? = start := by
  induction climbed with
  | ended => simp
  | stopped => simp
  | passing current node found _ _ ih =>
    rw [(sameLinks_insert found (keeps node)).up_eq] at ih
    rw [cons_append, isChain_cons, ih.2]
    exact ⟨⟨fun parent isParent => ⟨node, found, isParent⟩, ih.1⟩, rfl⟩

theorem Blockchain.mem_stream_iff {chain : Blockchain} {stream : List BlockViewLite}
    (linked : stream.IsChain fun earlier later => BlockUp chain.Holds later earlier)
    (isFirst : stream.head? = some first) (isLast : stream.getLast? = some last) :
    block ∈ stream ↔ chain.Climbs last block ∧ chain.Climbs block first := by
  have path := isChain_reverse.mpr linked
  rw [← head?_reverse] at isLast
  rw [← getLast?_reverse] at isFirst
  rw [← mem_reverse]
  generalize stream.reverse = upward at path isFirst isLast
  cases upward with
  | nil => cases isLast
  | cons top upward =>
    cases isLast
    exact Climbing.mem_path_iff up_unique falls path isFirst

namespace RecentBlocksTracker

variable {T : Type} {chain : Blockchain} {self t : RecentBlocksTracker T}

abbrev blocks (entries : List (BlockViewLite × T)) : List BlockViewLite := entries.map Prod.fst

/-- What was reported so far is a chain up to the final head, with the contents that were given. -/
structure Reported (chain : Blockchain) (given : List (BlockViewLite × T))
    (tracker : RecentBlocksTracker T) (stream : List (BlockViewLite × T)) : Prop where
  part : stream ⊆ given
  linked : (blocks stream).IsChain fun earlier later => BlockUp chain.Holds later earlier
  head : tracker.finalHead = stream.getLast?.map fun entry => entry.1.hash
  final {entry : BlockViewLite × T} :
    entry ∈ given → tracker.hashToNode.IsFinal entry.1.hash → entry ∈ stream
  contents {entry : BlockViewLite × T} : entry ∈ given → tracker.hashToNode.Held entry.1.hash →
    tracker.nodeToContent.lookup entry.1.hash = some entry.2

section Entries

variable {given entries : List (BlockViewLite × T)}

theorem entry_unique (streams : chain.Streams (blocks given)) (once : (blocks given).Nodup)
    (isEntry : entry ∈ given) (isOther : other ∈ given) (hashes : entry.1.hash = other.1.hash) :
    entry = other := by
  have holds : ∀ e ∈ given, chain.Holds e.1 := fun e inside => streams.holds (mem_map_of_mem inside)
  exact inj_on_of_nodup_map once isEntry isOther
    (chain.hash_injective (holds entry isEntry) (holds other isOther) hashes)

theorem exists_entries (known : ∀ hash ∈ hashes, ∃ entry ∈ given, entry.1.hash = hash) :
    ∃ entries, entries.map (fun entry => entry.1.hash) = hashes ∧ entries ⊆ given := by
  induction hashes with
  | nil => exact ⟨[], rfl, nil_subset _⟩
  | cons hash hashes ih =>
    obtain ⟨entry, isGiven, isHash⟩ := known hash (by simp)
    obtain ⟨entries, rest, part⟩ := ih fun other inside => known other (by simp [inside])
    exact ⟨entry :: entries, by simp [isHash, rest], cons_subset.mpr ⟨isGiven, part⟩⟩

end Entries

namespace Links

variable {given : List BlockViewLite}

section

variable (links : Links given self) (streams : chain.Streams given)

include links streams

theorem lower_of_up
    (isB : b ∈ given) {hash : CryptoHash} (climb : TransGen self.hashToNode.Up b.hash hash) :
    ∃ above ∈ given, above.hash = hash ∧ above.height < b.height := by
  obtain ⟨parent, up, climb⟩ := TransGen.head'_iff.mp climb
  obtain ⟨other, isOther, next, isNext, same, rfl, blockUp⟩ := links.block_up streams up
  cases chain.hash_injective (streams.holds isOther) (streams.holds isB) same
  obtain ⟨above, isAbove, isHash, climb⟩ := links.block_climb streams isNext climb
  have lower := chain.height_lt blockUp
  have lowest := Climbing.rank_le Blockchain.falls climb
  exact ⟨above, isAbove, isHash, by omega⟩

theorem acyclic :
    self.hashToNode.Acyclic := by
  intro hash cycle
  obtain ⟨parent, ⟨node, found, _⟩, _⟩ := TransGen.head'_iff.mp cycle
  obtain ⟨b, isB, rfl, _⟩ := links.origin found
  obtain ⟨above, isAbove, same, lower⟩ := links.lower_of_up streams isB cycle
  cases chain.hash_injective (streams.holds isAbove) (streams.holds isB) same
  exact Nat.lt_irrefl _ lower

theorem climb_of_blocks (isTop : top ∈ given) (isB : b ∈ given)
    (present : ∀ c ∈ given, b.height ≤ c.height → self.hashToNode.Held c.hash)
    (climb : chain.Climbs top b) : ReflTransGen self.hashToNode.Up top.hash b.hash := by
  induction climb using ReflTransGen.head_induction_on with
  | refl => exact .refl
  | head up climb ih =>
    have isParent := streams.gapless isTop isB (.single up) climb
    have higher := Climbing.rank_le Blockchain.falls climb
    have highest := chain.height_lt up
    have linked := links.linked isTop isParent up.2.2 (present _ isTop (by omega))
      (present _ isParent higher)
    exact .head linked (ih isParent)

end

end Links

theorem floor_le_head (isTop : self.headHeight self.finalHead = some top) : self.floor ≤ top := by
  simp [floor, minimumHeightToKeep, isTop]

theorem nodeToContent_insertNode :
    (self.insertNode block content).nodeToContent = self.nodeToContent.insert block.hash content := by
  cases known : self.hashToNode.lookup block.prevHash <;> simp [insertNode, known]

namespace Reported

variable {given stream : List (BlockViewLite × T)} {block : BlockViewLite} {content : T}

theorem of_kept (reported : Reported chain given self stream) (head : t.finalHead = self.finalHead)
    (final : ∀ hash, t.hashToNode.IsFinal hash → self.hashToNode.IsFinal hash)
    (kept : ∀ hash, t.hashToNode.Held hash → self.hashToNode.Held hash ∧
      t.nodeToContent.lookup hash = self.nodeToContent.lookup hash) :
    Reported chain given t stream where
  part := reported.part
  linked := reported.linked
  head := head.trans reported.head
  final isGiven isFinal := reported.final isGiven (final _ isFinal)
  contents isGiven held := by
    obtain ⟨was, same⟩ := kept _ held
    exact same.trans (reported.contents isGiven was)

theorem climbs_of_mem (reported : Reported chain given self stream)
    (isLast : stream.getLast? = some last) (inside : entry ∈ stream) :
    chain.Climbs last.1 entry.1 := by
  have blockLast : (blocks stream).getLast? = some last.1 := by simp [isLast]
  have member : entry.1 ∈ blocks stream := mem_map_of_mem inside
  cases isFirst : (blocks stream).head? with
  | none =>
    rw [head?_eq_none_iff.mp isFirst] at member
    cases member
  | some first => exact ((Blockchain.mem_stream_iff reported.linked isFirst blockLast).mp member).1

theorem insertNode (reported : Reported chain given self stream)
    (streams : chain.Streams (blocks (given ++ [(block, content)])))
    (once : (blocks (given ++ [(block, content)])).Nodup)
    (fresh : self.hashToNode.lookup block.hash = none) :
    Reported chain (given ++ [(block, content)]) (self.insertNode block content) stream where
  part := subset_append_of_subset_left _ reported.part
  linked := reported.linked
  head := Links.finalHead_insertNode.trans reported.head
  final := by
    intro entry isGiven isFinal
    rw [Links.isFinal_insertNode fresh] at isFinal
    obtain early | last := mem_append.mp isGiven
    · exact reported.final early isFinal
    · rw [mem_singleton.mp last] at isFinal
      obtain ⟨node, found, _⟩ := isFinal
      cases found.symm.trans fresh
  contents := by
    intro entry isGiven held
    rw [nodeToContent_insertNode, Table.lookup_insert_eq]
    split
    · rename_i isNew
      rw [entry_unique streams once isGiven (by simp : (block, content) ∈ _) isNew]
    · rename_i isOld
      obtain early | last := mem_append.mp isGiven
      · exact reported.contents early (Links.held_of_insertNode fresh held isOld)
      · exact absurd (congrArg (fun e => e.1.hash) (mem_singleton.mp last)) isOld

theorem above_head (tracks : Tracks (blocks given) self)
    (streams : chain.Streams (blocks given ++ [block]))
    (fresh : self.hashToNode.lookup block.hash = none) {head : BlockViewLite}
    (isHead : self.finalHead = some head.hash) (isGiven : head ∈ blocks given)
    (isDeclared : declared ∈ blocks given ++ [block])
    (isLast : block.lastFinalBlock = declared.hash)
    (held : (self.insertNode block content).hashToNode.Held declared.hash)
    (notFinal : ¬ (self.insertNode block content).hashToNode.IsFinal declared.hash) :
    chain.Climbs declared head := by
  obtain ⟨headFinal, declarer, isDeclarer, declares⟩ := tracks.links.head isHead
  have holdsBlock : chain.Holds block := streams.holds (by simp)
  obtain down | up := chain.final_chain (streams.init.holds isDeclarer) holdsBlock
    (streams.init.holds isGiven) (streams.holds isDeclared) declares isLast
  · have old : declared.hash ≠ block.hash := by
      intro same
      cases chain.hash_injective (streams.holds isDeclared) holdsBlock same
      obtain rfl | strict := reflTransGen_iff_eq_or_transGen.mp down
      · obtain ⟨node, found, _⟩ := headFinal
        cases found.symm.trans fresh
      · exact streams.newest isGiven strict
    have early : declared ∈ blocks given := by
      obtain early | new := mem_append.mp isDeclared
      · exact early
      · exact absurd (congrArg BlockViewLite.hash (mem_singleton.mp new)) old
    have final := tracks.final_of_climb streams.init early isGiven
      (Links.held_of_insertNode fresh held old) headFinal down
    exact absurd ((Links.isFinal_insertNode fresh).mpr final) notFinal
  · exact up

theorem present_insertNode (tracks : Tracks (blocks given) self)
    (streams : chain.Streams (blocks given ++ [block]))
    (fresh : self.hashToNode.lookup block.hash = none) {head : BlockViewLite}
    (isHead : self.finalHead = some head.hash) (isGiven : head ∈ blocks given) :
    ∀ c ∈ blocks given ++ [block], head.height ≤ c.height →
      (self.insertNode block content).hashToNode.Held c.hash := by
  intro c isC high
  obtain ⟨⟨node, found, _⟩, _⟩ := tracks.links.head isHead
  have height := tracks.links.height_eq streams.init isGiven found
  have low : self.floor ≤ node.height :=
    floor_le_head (headHeight_eq_some.mpr ⟨head.hash, node, isHead, found, rfl⟩)
  obtain early | new := mem_append.mp isC
  · exact Tree.held_insertNode fresh (tracks.present early (by omega))
  · rw [mem_singleton.mp new]
    exact ⟨_, by rw [lookup_insertNode fresh, if_pos rfl]⟩

variable {last : Option CryptoHash}

/-- The loop passes every block that is not final yet and stops at the final head. -/
theorem stops_at_head (reported : Reported chain given self stream)
    (tracks : Tracks (blocks given) self)
    (streams : chain.Streams (blocks (given ++ [(block, content)])))
    (once : (blocks (given ++ [(block, content)])).Nodup)
    (fresh : self.hashToNode.lookup block.hash = none)
    (found : (self.insertNode block content).hashToNode.lookup block.lastFinalBlock = some node)
    (finalised : Finalised (self.insertNode block content).hashToNode (some block.lastFinalBlock)
      nodes passed last) (goesOn : passed ≠ []) : last = self.finalHead := by
  have extended : blocks (given ++ [(block, content)]) = blocks given ++ [block] := by simp
  have inserted := reported.insertNode streams once fresh
  rw [extended] at streams
  have linked : Links (blocks given ++ [block]) (self.insertNode block content) :=
    tracks.links.insertNode streams fresh
  have stopped := Climbed.stop_iff finalised (fun _ => rfl) (linked.acyclic streams)
  have notFinal : ¬ (self.insertNode block content).hashToNode.IsFinal block.lastFinalBlock := by
    rintro ⟨_, found, isFinal⟩
    cases finalised with
    | stopped => exact goesOn rfl
    | passing _ _ again notYet =>
      cases found.symm.trans again
      exact notYet isFinal
  have stopsFinal : ∀ top, last = some top →
      ∃ entry ∈ stream, entry.1.hash = top ∧ entry.1 ∈ blocks given ++ [block] := by
    rintro top rfl
    obtain ⟨topNode, foundTop, isFinal⟩ := stopped.2 top rfl
    obtain ⟨b, isB, rfl, _⟩ := linked.origin foundTop
    obtain ⟨entry, isEntry, rfl⟩ := mem_map.mp (extended ▸ isB)
    exact ⟨entry, inserted.final isEntry ⟨topNode, foundTop, isFinal⟩, rfl, isB⟩
  rw [reported.head]
  cases isLast : stream.getLast? with
  | none =>
    cases last with
    | none => rfl
    | some top =>
      obtain ⟨entry, inside, _⟩ := stopsFinal top rfl
      rw [getLast?_eq_none_iff.mp isLast] at inside
      cases inside
  | some head =>
    have isHead : self.finalHead = some head.1.hash := by rw [reported.head, isLast, Option.map_some]
    have inStream : head ∈ stream := mem_of_getLast? isLast
    have isGiven : head.1 ∈ blocks given := mem_map_of_mem (reported.part inStream)
    obtain ⟨headFinal, _⟩ := tracks.links.head isHead
    obtain ⟨declared, isDeclared, hashes, _⟩ := linked.origin found
    rw [← hashes] at found notFinal
    have climbs := above_head tracks streams fresh isHead isGiven isDeclared hashes.symm
      ⟨node, found⟩ notFinal
    have pointers := linked.climb_of_blocks streams isDeclared (mem_append_left _ isGiven)
      (present_insertNode tracks streams fresh isHead isGiven) climbs
    rw [hashes] at pointers
    obtain inside | ⟨top, isTop, climb⟩ :=
      (Climbed.ancestors finalised fun _ => rfl).mp ⟨_, rfl, pointers⟩
    · obtain ⟨other, again, notYet⟩ := stopped.1 _ inside
      obtain ⟨headNode, foundHead, isFinal⟩ := (Links.isFinal_insertNode fresh).mpr headFinal
      cases foundHead.symm.trans again
      exact absurd isFinal notYet
    · obtain ⟨entry, isEntry, rfl, isB⟩ := stopsFinal top isTop
      have down := reported.climbs_of_mem isLast isEntry
      obtain ⟨above, isAbove, same, up⟩ := linked.block_climb streams isB climb
      cases chain.hash_injective (streams.holds isAbove) (streams.init.holds isGiven) same
      have equal := Climbing.eq_of_rank_le Blockchain.falls up
        (Climbing.rank_le Blockchain.falls down)
      rw [isTop, equal, Option.map_some]

variable {f : CryptoHash}

section

variable (reported : Reported chain given self stream) (links : Links (blocks given) self)
  (streams : chain.Streams (blocks given))

include reported links streams

/-- The final head moves exactly if blocks become final. -/
theorem newer_iff (found : self.hashToNode.lookup f = some node)
    (finalised : Finalised self.hashToNode (some f) nodes passed last)
    (stops : passed ≠ [] → last = self.finalHead) :
    (self.headHeight self.finalHead).all (· < node.height) = true ↔ passed ≠ [] := by
  obtain ⟨declared, isDeclared, rfl, height, _⟩ := links.origin found
  obtain ⟨entry, isEntry, rfl⟩ := mem_map.mp isDeclared
  constructor
  · rintro newer rfl
    have final : self.hashToNode.IsFinal entry.1.hash := by
      cases finalised with
      | stopped _ other again isFinal => exact ⟨other, again, isFinal⟩
    have inside := reported.final isEntry final
    cases isLast : stream.getLast? with
    | none =>
      rw [getLast?_eq_none_iff.mp isLast] at inside
      cases inside
    | some head =>
      have isHead : self.finalHead = some head.1.hash := by rw [reported.head, isLast, Option.map_some]
      have isGiven : head.1 ∈ blocks given :=
        mem_map_of_mem (reported.part (mem_of_getLast? isLast))
      obtain ⟨⟨headNode, foundHead, _⟩, _⟩ := links.head isHead
      have headHeight := links.height_eq streams isGiven foundHead
      have lower := Climbing.rank_le Blockchain.falls (reported.climbs_of_mem isLast inside)
      simp only [RecentBlocksTracker.headHeight, isHead, foundHead, Option.bind_some,
        Option.map_some, Option.all_some, decide_eq_true_eq] at newer
      omega
  · intro goesOn
    have isStop := stops goesOn
    cases isHead : self.finalHead with
    | none => rfl
    | some head =>
      rw [isHead] at isStop
      subst isStop
      have isFirst : entry.1.hash ∈ passed := by
        have first := (Climbed.path finalised fun _ => rfl).2
        rw [head?_append_of_ne_nil _ goesOn] at first
        exact mem_of_mem_head? first
      obtain ⟨b, isB, rfl, lower⟩ := links.lower_of_up streams isDeclared
        (Climbed.stops_above finalised (fun _ => rfl) isFirst)
      obtain ⟨⟨headNode, foundHead, _⟩, _⟩ := links.head isHead
      have headHeight := links.height_eq streams isB foundHead
      simp only [RecentBlocksTracker.headHeight, foundHead, Option.bind_some, Option.map_some,
        Option.all_some, decide_eq_true_eq]
      omega

theorem continue_linked (finalised : Finalised self.hashToNode (some f) nodes passed last)
    (stops : passed ≠ [] → last = self.finalHead) {new : List (BlockViewLite × T)}
    (hashes : new.map (fun entry => entry.1.hash) = passed.reverse) (part : new ⊆ given) :
    (blocks (stream ++ new)).IsChain fun earlier later => BlockUp chain.Holds later earlier := by
  obtain ⟨passedLinked, _, joint⟩ := isChain_append.mp (Climbed.path finalised fun _ => rfl).1
  have blockUp : ∀ a b : BlockViewLite × T, a ∈ given → b ∈ given →
      self.hashToNode.Up b.1.hash a.1.hash → BlockUp chain.Holds b.1 a.1 := by
    intro a b isA isB up
    have holds : ∀ e ∈ given, chain.Holds e.1 := fun e inside => streams.holds (mem_map_of_mem inside)
    obtain ⟨c, isC, p, isP, sameC, sameP, blockUp⟩ := links.block_up streams up
    cases chain.hash_injective (streams.holds isC) (holds b isB) sameC
    cases chain.hash_injective (streams.holds isP) (holds a isA) sameP
    exact blockUp
  rw [blocks, isChain_map, isChain_append]
  refine ⟨(isChain_map _).mp reported.linked, ?_, ?_⟩
  · have downward : passed.reverse.IsChain fun a b => self.hashToNode.Up b a :=
      isChain_reverse.mpr passedLinked
    rw [← hashes, isChain_map] at downward
    exact downward.imp_of_mem_imp fun a b isA isB => blockUp a b (part isA) (part isB)
  · intro x isLast y isFirst
    have first : passed.getLast? = some y.1.hash := by
      rw [← head?_reverse, ← hashes, head?_map, isFirst, Option.map_some]
    have goesOn : passed ≠ [] := by
      rintro rfl
      cases first
    have isStop : last = some x.1.hash := by
      rw [stops goesOn, reported.head, isLast, Option.map_some]
    refine blockUp x y (reported.part (mem_of_getLast? isLast)) (part (mem_of_mem_head? isFirst)) ?_
    exact joint _ first _ (by simp [isStop])

theorem finalise (once : (blocks given).Nodup)
    (updated : self.maybeUpdateFinalHead f = some (t, newFinalBlocks))
    (stops : ∀ {node nodes passed last}, self.hashToNode.lookup f = some node →
      Finalised self.hashToNode (some f) nodes passed last → passed ≠ [] → last = self.finalHead) :
    ∃ new, t.finalBlocks newFinalBlocks = new.map (fun entry => (entry.1.height, entry.2)) ∧
      Reported chain given t (stream ++ new) := by
  obtain ⟨rfl, rfl⟩ | ⟨node, nodes, passed, last, found, finalised, rfl, rfl⟩ :=
    maybeUpdateFinalHead_ok updated
  · exact ⟨[], rfl, by simpa using reported⟩
  have same : SameLinks self.hashToNode nodes := Climbed.sameLinks finalised fun _ => rfl
  have stopped := Climbed.stop_iff finalised (fun _ => rfl) (links.acyclic streams)
  have held : ∀ hash ∈ passed, self.hashToNode.Held hash := by
    intro hash inside
    obtain ⟨other, isHeld, _⟩ := stopped.1 hash inside
    exact ⟨other, isHeld⟩
  have known : ∀ hash ∈ passed.reverse, ∃ entry ∈ given, entry.1.hash = hash := by
    intro hash inside
    obtain ⟨other, isHeld⟩ := held hash (mem_reverse.mp inside)
    obtain ⟨b, isB, rfl, _⟩ := links.origin isHeld
    obtain ⟨entry, isEntry, rfl⟩ := mem_map.mp isB
    exact ⟨entry, isEntry, rfl⟩
  obtain ⟨new, hashes, part⟩ := exists_entries known
  have member : ∀ hash, hash ∈ passed ↔ ∃ entry ∈ new, entry.1.hash = hash := by
    intro hash
    rw [← mem_reverse, ← hashes, mem_map]
  refine ⟨new, ?_, ?_, reported.continue_linked links streams finalised (stops found finalised)
    hashes part, ?_, ?_, ?_⟩
  · rw [← hashes, finalBlocks, filterMap_map, filterMap_eq_map_iff_forall_eq_some]
    intro entry inside
    obtain ⟨old, isHeld⟩ := held _ ((member _).mpr ⟨entry, inside, rfl⟩)
    obtain ⟨node', there, heights, _⟩ := same.node isHeld
    have height := links.height_eq streams (mem_map_of_mem (part inside)) isHeld
    have content := reported.contents (part inside) ⟨old, isHeld⟩
    simp [there, content, heights, height]
  · exact append_subset.mpr ⟨reported.part, part⟩
  · have lastNew : new.getLast?.map (fun entry => entry.1.hash) = passed.head? := by
      rw [← getLast?_map, hashes, getLast?_reverse]
    rw [getLast?_append, Option.map_or, lastNew, ← reported.head]
    have moves := reported.newer_iff links streams found finalised (stops found finalised)
    have first := (Climbed.path finalised fun _ => rfl).2
    cases passed with
    | nil =>
      have stays := mt moves.mp (by simp)
      simp only [stays]
      rfl
    | cons current rest =>
      have newer := moves.mpr (by simp)
      simp only [newer, if_true]
      exact first.symm
  · intro entry isGiven isFinal
    rw [mem_append]
    by_cases inside : entry.1.hash ∈ passed
    · obtain ⟨other, isNew, sameHash⟩ := (member _).mp inside
      rw [entry_unique streams once isGiven (part isNew) sameHash.symm]
      exact .inr isNew
    · obtain ⟨other, foundFinal, isFinal⟩ := isFinal
      rw [Climbed.lookup finalised fun _ => rfl, if_neg inside] at foundFinal
      exact .inl (reported.final isGiven ⟨other, foundFinal, isFinal⟩)
  · intro entry isGiven isHeld
    exact reported.contents isGiven (same.symm.held isHeld)

end

end Reported

theorem pruneOldBlocks_keeps (pruned : self.pruneOldBlocks = some t) :
    t.finalHead = self.finalHead ∧
      ∀ hash node', t.hashToNode.lookup hash = some node' →
        (∃ node, self.hashToNode.lookup hash = some node ∧ node'.isFinal = node.isFinal ∧
          node'.height = node.height) ∧
        t.nodeToContent.lookup hash = self.nodeToContent.lookup hash := by
  unfold pruneOldBlocks at pruned
  split at pruned
  · cases pruned
    exact ⟨rfl, fun hash node' found => ⟨⟨node', found, rfl, rfl⟩, rfl⟩⟩
  · split at pruned
    · cases pruned
      exact ⟨rfl, fun hash node' found => ⟨⟨node', found, rfl, rfl⟩, rfl⟩⟩
    · simp only [bind_some_iff] at pruned
      obtain ⟨collected, _, done⟩ := pruned
      cases done
      refine ⟨rfl, fun hash node' found => ?_⟩
      rw [Table.lookup_eraseAll] at found ⊢
      split at found
      · cases found
      · rename_i stays
        rw [Table.lookup_modifyAll (f := BlockNode.dropParent) fun _ => rfl] at found
        rw [if_neg stays]
        refine ⟨?_, rfl⟩
        split at found
        · obtain ⟨node, before, rfl⟩ := Option.map_eq_some_iff.mp found
          exact ⟨node, before, rfl, rfl⟩
        · exact ⟨node', found, rfl, rfl⟩

namespace Reported

variable {block : BlockViewLite}

theorem prune (reported : Reported chain given self stream) (pruned : self.pruneOldBlocks = some t) :
    Reported chain given t stream := by
  obtain ⟨head, kept⟩ := pruneOldBlocks_keeps pruned
  refine reported.of_kept head ?_ ?_
  · rintro hash ⟨node', found, isFinal⟩
    obtain ⟨⟨node, before, flags, _⟩, _⟩ := kept hash node' found
    exact ⟨node, before, flags ▸ isFinal⟩
  · rintro hash ⟨node', found⟩
    obtain ⟨⟨node, before, _⟩, contents⟩ := kept hash node' found
    exact ⟨⟨node, before⟩, contents⟩

theorem addBlock (reported : Reported chain given self stream)
    (tracks : Tracks (blocks given) self)
    (streams : chain.Streams (blocks (given ++ [(block, content)])))
    (once : (blocks (given ++ [(block, content)])).Nodup)
    (added : self.addBlock block content = some (.ok (t, newFinalBlocks))) :
    ∃ new, newFinalBlocks = new.map (fun entry => (entry.1.height, entry.2)) ∧
      Reported chain (given ++ [(block, content)]) t (stream ++ new) := by
  have extended : blocks (given ++ [(block, content)]) = blocks given ++ [block] := by simp
  obtain ⟨fresh, finalised, hashes, headed, updated, followed, pruned, rfl⟩ := addBlock_ok added
  have inserted := reported.insertNode streams once fresh
  have linked : Links (blocks (given ++ [(block, content)])) (self.insertNode block content) := by
    rw [extended] at streams ⊢
    exact tracks.links.insertNode streams fresh
  obtain ⟨new, reports, final⟩ := inserted.finalise linked streams once updated
    fun found isFinalised goesOn =>
      (reported.stops_at_head tracks streams once fresh found isFinalised goesOn).trans
        Links.finalHead_insertNode.symm
  have recoloured := followHighest_ok followed
  have headedReports : Reported chain (given ++ [(block, content)]) headed (stream ++ new) := by
    refine final.of_kept recoloured.finalHead (fun hash => recoloured.nodes.symm.isFinal) ?_
    intro hash held
    rw [(followHighest_frame followed).2]
    exact ⟨recoloured.nodes.symm.sameLinks.held held, rfl⟩
  have raised : Reported chain (given ++ [(block, content)])
      { headed with maximumHeightAvailable := max block.height headed.maximumHeightAvailable }
      (stream ++ new) :=
    headedReports.of_kept rfl (fun _ => id) fun _ held => ⟨held, rfl⟩
  exact ⟨new, reports, raised.prune pruned⟩

theorem notify (reported : Reported chain given self stream)
    (notified : self.notifyMaximumHeightAvailable height = some t) :
    Reported chain given t stream := by
  unfold notifyMaximumHeightAvailable at notified
  split at notified
  · have raised : Reported chain given { self with maximumHeightAvailable := height } stream :=
      reported.of_kept rfl (fun _ => id) fun _ held => ⟨held, rfl⟩
    exact raised.prune notified
  · cases notified
    exact reported

end Reported

end RecentBlocksTracker

/-- The block that a call gives, with its content. -/
def TrackerCall.given : TrackerCall T → Option (BlockViewLite × T)
  | addBlock block content => some (block, content)
  | notifyMaximumHeightAvailable _ => none

def TrackerNote.newFinalBlocks : TrackerNote T → List (Nat × T)
  | added newFinalBlocks => newFinalBlocks
  | refused _ | notified => []

namespace RecentBlocksTracker

variable {T : Type} {chain : Blockchain} {t : RecentBlocksTracker T} {es : List (TrackerEvent T)}

/-- As long as the indexer keeps its promises, the reports are a stream of final blocks. -/
def Streamed (chain : Blockchain) (es : List (TrackerEvent T)) (tracker : RecentBlocksTracker T) :
    Prop :=
  let given := es.filterMap fun e => e.1.given
  chain.Streams (blocks given) → (blocks given).Nodup →
    Tracks (blocks given) tracker ∧ ∃ stream, Reported chain given tracker stream ∧
      (es.flatMap fun e => e.2.newFinalBlocks) = stream.map fun entry => (entry.1.height, entry.2)

theorem streamed_new (windowSize : Nat) :
    Streamed chain [] (new windowSize : RecentBlocksTracker T) := by
  intro _ _
  refine ⟨tracks_new windowSize, [], ⟨nil_subset _, .nil, rfl, ?_, ?_⟩, rfl⟩
  · intro entry isGiven
    cases isGiven
  · intro entry isGiven
    cases isGiven

theorem Streamed.step (streamed : Streamed chain es self) (acted : self.act call = some (t, note)) :
    Streamed chain (es ++ [(call, note)]) t := by
  unfold Streamed at streamed ⊢
  simp only [filterMap_append, flatMap_append]
  generalize es.filterMap (fun e => e.1.given) = given at streamed ⊢
  cases call with
  | notifyMaximumHeightAvailable height =>
    simp only [act, bind_some_iff, Option.some.injEq,
      Prod.mk.injEq] at acted
    obtain ⟨changed, notified, rfl, rfl⟩ := acted
    simp only [filterMap_cons, TrackerCall.given, filterMap_nil, append_nil]
    intro streams once
    obtain ⟨tracks, stream, reported, same⟩ := streamed streams once
    refine ⟨(tracks.notify streams notified).1, stream, reported.notify notified, ?_⟩
    rw [same]
    simp [TrackerNote.newFinalBlocks]
  | addBlock block content =>
    simp only [filterMap_cons, TrackerCall.given, filterMap_nil]
    intro streams once
    have extended : blocks (given ++ [(block, content)]) = blocks given ++ [block] := by simp
    have split := extended ▸ once
    have streams' := extended ▸ streams
    obtain ⟨tracks, stream, reported, same⟩ := streamed streams'.init
      (nodup_append.mp split).1
    simp only [act, bind_some_iff] at acted
    obtain ⟨result, added, done⟩ := acted
    cases result with
    | error reason =>
      obtain ⟨node, found⟩ := held_of_refused added
      obtain ⟨b, isB, hashes, _⟩ := tracks.links.origin found
      cases chain.hash_injective (streams'.init.holds isB) (streams'.holds (by simp)) hashes
      exact absurd rfl ((nodup_append.mp split).2.2 _ isB _ (mem_singleton_self _))
    | ok answer =>
      obtain ⟨changed, newFinalBlocks⟩ := answer
      cases done
      obtain ⟨new, reports, continued⟩ := reported.addBlock tracks streams once added
      refine ⟨?_, stream ++ new, continued, ?_⟩
      · rw [extended]
        exact (tracks.addBlock streams' added).1
      · rw [same]
        simp [reports, TrackerNote.newFinalBlocks]

/-- On a blockchain whose blocks come once each, `add_block` reports the chain from the first block
    reported up to the final head, without gap or repetition. -/
theorem final_blocks_stream (chain : Blockchain) (windowSize : Nat) (calls : List (TrackerCall T))
    (streams : chain.Streams (blocks (calls.filterMap TrackerCall.given)))
    (once : (blocks (calls.filterMap TrackerCall.given)).Nodup) :
    ∃ t es stream, replay act (new windowSize : RecentBlocksTracker T) calls = some (t, es) ∧
      (es.flatMap fun e => e.2.newFinalBlocks) =
        stream.map (fun entry => (entry.1.height, entry.2)) ∧
      stream ⊆ calls.filterMap TrackerCall.given ∧
      (blocks stream).IsChain (fun earlier later =>
        later.prevHash = earlier.hash ∧ earlier.height < later.height) ∧
      t.finalHead = (blocks stream).getLast?.map BlockViewLite.hash ∧
      (blocks stream).Nodup ∧
      ∀ first last, (blocks stream).head? = some first → (blocks stream).getLast? = some last →
        ∀ block, block ∈ blocks stream ↔ chain.Climbs last block ∧ chain.Climbs block first := by
  obtain ⟨t, es, ran, _⟩ :=
    replay_total (Sound windowSize) (fun _ _ call sound => sound.step call) (sound_new windowSize) calls
  have streamed : Streamed chain es t :=
    (run_of_replay ran).invariant (Streamed chain) (streamed_new windowSize)
      fun _ _ _ _ _ streamed acted => streamed.step acted
  have inputs : es.filterMap (fun e => e.1.given) = calls.filterMap TrackerCall.given := by
    rw [← inputs_of_replay ran, filterMap_map]
    rfl
  unfold Streamed at streamed
  rw [inputs] at streamed
  obtain ⟨_, stream, reported, same⟩ := streamed streams once
  refine ⟨t, es, stream, ran, same, reported.part, ?_, ?_, ?_, ?_⟩
  · exact reported.linked.imp fun earlier later up => ⟨up.2.2, chain.height_lt up⟩
  · rw [reported.head, getLast?_map, Option.map_map]
    rfl
  · have upward := isChain_reverse.mpr reported.linked
    exact nodup_reverse.mp (Climbing.nodup_path Blockchain.falls upward)
  · intro first last isFirst isLast block
    exact Blockchain.mem_stream_iff reported.linked isFirst isLast

/-- Blocks 2 and 3 both follow block 1; blocks 1 and 2 are declared final one after the other. -/
private def finalTwice : List BlockViewLite :=
  [⟨⟨1⟩, 1, ⟨0⟩, ⟨0⟩⟩, ⟨⟨2⟩, 2, ⟨1⟩, ⟨0⟩⟩, ⟨⟨3⟩, 3, ⟨1⟩, ⟨0⟩⟩, ⟨⟨4⟩, 4, ⟨2⟩, ⟨1⟩⟩, ⟨⟨5⟩, 6, ⟨4⟩, ⟨2⟩⟩]

private def finalTwiceChain : Blockchain where
  Holds b := b ∈ finalTwice
  hash_injective {a b} isA isB same := by
    have all : ∀ a ∈ finalTwice, ∀ b ∈ finalTwice, a.hash = b.hash → a = b := by decide
    exact all a isA b isB same
  height_lt {b p} up := by
    have all : ∀ b ∈ finalTwice, ∀ p ∈ finalTwice, b.prevHash = p.hash → p.height < b.height := by
      decide
    exact all b up.1 p up.2.1 up.2.2
  final_chain {a b f g} isA isB isF isG first second := by
    have all : ∀ a ∈ finalTwice, ∀ b ∈ finalTwice, ∀ f ∈ finalTwice, ∀ g ∈ finalTwice,
        a.lastFinalBlock = f.hash → b.lastFinalBlock = g.hash →
          f = g ∨ f.prevHash = g.hash ∨ g.prevHash = f.hash := by
      decide +kernel
    obtain rfl | up | up := all a isA b isB f isF g isG first second
    · exact .inl .refl
    · exact .inl (.single ⟨isF, isG, up⟩)
    · exact .inr (.single ⟨isG, isF, up⟩)

private def finalTwiceCalls : List (TrackerCall Nat) :=
  (finalTwice.map fun block => .addBlock block block.height) ++ [.notifyMaximumHeightAvailable 9]

/-- Block 1 is reported first and block 2 next, with a window of one block. -/
theorem final_blocks_stream_twice :
    ∃ t es stream, replay act (new 1 : RecentBlocksTracker Nat) finalTwiceCalls = some (t, es) ∧
      stream.map (fun entry => (entry.1.height, entry.2)) = [(1, 1), (2, 2)] ∧
      (blocks stream).IsChain (fun earlier later =>
        later.prevHash = earlier.hash ∧ earlier.height < later.height) ∧
      (blocks stream).getLast?.map BlockViewLite.hash = some ⟨2⟩ := by
  have streams : finalTwiceChain.Streams (blocks (finalTwiceCalls.filterMap TrackerCall.given)) :=
    Blockchain.streams_of_sorted (fun _ => Iff.rfl) (by decide)
  obtain ⟨t, es, stream, ran, same, _, linked, head, _⟩ :=
    final_blocks_stream finalTwiceChain 1 finalTwiceCalls streams (by decide)
  have reports : (replay act (new 1 : RecentBlocksTracker Nat) finalTwiceCalls).map
      (fun r => (r.2.flatMap fun e => e.2.newFinalBlocks, r.1.finalHead)) =
        some ([(1, 1), (2, 2)], some ⟨2⟩) := by
    decide +kernel
  rw [ran, Option.map_some, Option.some.injEq, Prod.mk.injEq] at reports
  exact ⟨t, es, stream, ran, same.symm.trans reports.1, linked, head.symm.trans reports.2⟩

end RecentBlocksTracker

end MpcNetwork.Node
