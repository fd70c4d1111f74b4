import MpcNetwork.Node.Requests.BlockForest

/-! # The tracker on a blockchain

When the indexer keeps its promises, the tracker holds every given block above the lowest
height to keep, linked to its parent, and a block that was given up as not included never
becomes final later.
-/

namespace MpcNetwork.Node

open BlockNodes Fallible Relation

def BlockUp (Holds : BlockViewLite → Prop) (block parent : BlockViewLite) : Prop :=
  Holds block ∧ Holds parent ∧ block.prevHash = parent.hash

/-- Heights increase from parent to child, and the final blocks lie on one chain. -/
structure Blockchain where
  Holds : BlockViewLite → Prop
  hash_injective {a b : BlockViewLite} : Holds a → Holds b → a.hash = b.hash → a = b
  height_lt {block parent : BlockViewLite} : BlockUp Holds block parent → parent.height < block.height
  final_chain {a b f g : BlockViewLite} : Holds a → Holds b → Holds f → Holds g →
    a.lastFinalBlock = f.hash → b.lastFinalBlock = g.hash →
      ReflTransGen (BlockUp Holds) f g ∨ ReflTransGen (BlockUp Holds) g f

variable {b : BlockViewLite}

namespace Blockchain

variable (chain : Blockchain)

/-- The second block is the first or one of its ancestors. -/
abbrev Climbs : BlockViewLite → BlockViewLite → Prop := ReflTransGen (BlockUp chain.Holds)

/-- No block comes after a descendant, and none is left out between two that come. -/
structure Streams (given : List BlockViewLite) : Prop where
  holds {b : BlockViewLite} : b ∈ given → chain.Holds b
  ordered : given.Pairwise fun a b => ¬ TransGen (BlockUp chain.Holds) a b
  gapless {a b c : BlockViewLite} : c ∈ given → a ∈ given → chain.Climbs c b → chain.Climbs b a →
    b ∈ given

variable {chain}

theorem up_unique : Relator.RightUnique (BlockUp chain.Holds) := by
  rintro block p q ⟨_, holdsP, isP⟩ ⟨_, holdsQ, isQ⟩
  exact chain.hash_injective holdsP holdsQ (isP.symm.trans isQ)

theorem falls (block parent : BlockViewLite) (up : BlockUp chain.Holds block parent) :
    parent.height < block.height :=
  chain.height_lt up

namespace Streams

variable {block : BlockViewLite}

theorem apart (streams : chain.Streams (given ++ later)) (early : a ∈ given) (late : b ∈ later) :
    ¬ TransGen (BlockUp chain.Holds) a b :=
  (List.pairwise_append.mp streams.ordered).2.2 a early b late

theorem newest (streams : chain.Streams (given ++ [block])) (early : b ∈ given) :
    ¬ TransGen (BlockUp chain.Holds) b block :=
  streams.apart early (List.mem_singleton_self block)

theorem init (streams : chain.Streams (given ++ later)) : chain.Streams given where
  holds early := streams.holds (List.mem_append_left _ early)
  ordered := (List.pairwise_append.mp streams.ordered).1
  gapless := by
    intro a b c isC isA down up
    have inside := streams.gapless (List.mem_append_left _ isC) (List.mem_append_left _ isA) down up
    obtain early | late := List.mem_append.mp inside
    · exact early
    · obtain rfl | strict := reflTransGen_iff_eq_or_transGen.mp down
      · exact isC
      · exact absurd strict (streams.apart isC late)

end Streams

theorem streams_of_ranked (rank : BlockViewLite → Nat) (all : ∀ b, chain.Holds b ↔ b ∈ given)
    (first : ∀ block parent, BlockUp chain.Holds block parent → rank parent < rank block)
    (sorted : given.Pairwise fun a b => rank a ≤ rank b) : chain.Streams given where
  holds inside := (all _).mpr inside
  ordered := by
    refine sorted.imp fun {a b} low strict => ?_
    obtain ⟨p, up, climb⟩ := TransGen.head'_iff.mp strict
    have lower := first a p up
    have lowest := Climbing.rank_le first climb
    omega
  gapless := by
    intro a b c isC _ down _
    obtain rfl | ⟨p, _, last⟩ := ReflTransGen.cases_tail down
    · exact isC
    · exact (all _).mp last.2.1

theorem streams_of_sorted (all : ∀ b, chain.Holds b ↔ b ∈ given)
    (sorted : given.Pairwise fun a b => a.height ≤ b.height) : chain.Streams given :=
  streams_of_ranked BlockViewLite.height all falls sorted

end Blockchain

namespace BlockNodes

def Held (nodes : BlockNodes) (hash : CryptoHash) : Prop := ∃ node, nodes.lookup hash = some node

def SameFinality (nodes nodes' : BlockNodes) : Prop :=
  ∀ hash, (nodes'.lookup hash).map (BlockNode.storeCanonical false) =
    (nodes.lookup hash).map (BlockNode.storeCanonical false)

variable {nodes nodes' : BlockNodes}

theorem SameFinality.symm (same : SameFinality nodes nodes') : SameFinality nodes' nodes :=
  fun hash => (same hash).symm

theorem SameFinality.sameLinks (same : SameFinality nodes nodes') : SameLinks nodes nodes' := by
  intro hash
  have keeps : links ∘ BlockNode.storeCanonical false = links := rfl
  rw [← keeps, ← Option.map_map, same, Option.map_map]

variable {hash : CryptoHash}

theorem SameFinality.isFinal (same : SameFinality nodes nodes') (final : nodes.IsFinal hash) :
    nodes'.IsFinal hash := by
  obtain ⟨node, found, isFinal⟩ := final
  have linked := same hash
  rw [found, Option.map_some, Option.map_eq_some_iff] at linked
  obtain ⟨node', there, equal⟩ := linked
  have flags : node'.isFinal = node.isFinal := (congrArg BlockNode.isFinal equal :)
  exact ⟨node', there, flags.trans isFinal⟩

theorem FinalClosed.sameFinality (closed : nodes.FinalClosed) (same : SameFinality nodes nodes') :
    nodes'.FinalClosed :=
  fun child parent final up =>
    same.isFinal (closed child parent (same.symm.isFinal final) (same.symm.sameLinks.up up))

theorem SameLinks.held (same : SameLinks nodes nodes') (held : nodes.Held hash) :
    nodes'.Held hash := by
  obtain ⟨node, found⟩ := held
  obtain ⟨node', there, _⟩ := same.node found
  exact ⟨node', there⟩

theorem IsFinal.held (final : nodes.IsFinal hash) : nodes.Held hash :=
  ⟨_, final.choose_spec.1⟩

end BlockNodes

variable {hash : CryptoHash}

namespace RecentBlocksTracker

variable {T : Type} {chain : Blockchain} {given : List BlockViewLite} {block : BlockViewLite}
  {self t : RecentBlocksTracker T}

/-- Nodes are linked as the given blocks; final ones are closed under parents. -/
structure Links (given : List BlockViewLite) (tracker : RecentBlocksTracker T) : Prop where
  forest : tracker.Forest
  origin {hash : CryptoHash} {node : BlockNode} : tracker.hashToNode.lookup hash = some node →
    ∃ b ∈ given, b.hash = hash ∧ b.height = node.height ∧ ∀ p, node.parent = some p → b.prevHash = p
  linked {b p : BlockViewLite} : b ∈ given → p ∈ given → b.prevHash = p.hash →
    tracker.hashToNode.Held b.hash → tracker.hashToNode.Held p.hash → tracker.hashToNode.Up b.hash p.hash
  closed : tracker.hashToNode.FinalClosed
  head {f : CryptoHash} : tracker.finalHead = some f →
    tracker.hashToNode.IsFinal f ∧ ∃ b ∈ given, b.lastFinalBlock = f

namespace Links

theorem of_sameLinks (links : Links given self) (same : SameLinks self.hashToNode t.hashToNode)
    (roots : t.rootChildren = self.rootChildren) (closed : t.hashToNode.FinalClosed)
    (head : ∀ f, t.finalHead = some f →
      t.hashToNode.IsFinal f ∧ ∃ b ∈ given, b.lastFinalBlock = f) :
    Links given t where
  forest := by
    have forest := BlockNodes.Forest.sameLinks links.forest same
    rwa [← roots] at forest
  origin found := by
    obtain ⟨node, there, heights, parents, _⟩ := same.symm.node found
    obtain ⟨b, isGiven, hashes, high, prev⟩ := links.origin there
    exact ⟨b, isGiven, hashes, high.trans heights, fun p isParent => prev p (parents.trans isParent)⟩
  linked isB isP prev heldB heldP :=
    same.up (links.linked isB isP prev (same.symm.held heldB) (same.symm.held heldP))
  closed := closed
  head := head _

theorem of_sameFinality (links : Links given self)
    (same : SameFinality self.hashToNode t.hashToNode)
    (roots : t.rootChildren = self.rootChildren) (heads : t.finalHead = self.finalHead) :
    Links given t := by
  refine links.of_sameLinks same.sameLinks roots (links.closed.sameFinality same) ?_
  intro f isHead
  obtain ⟨final, declared⟩ := links.head (heads ▸ isHead)
  exact ⟨same.isFinal final, declared⟩

theorem isFinal_insertNode (fresh : self.hashToNode.lookup block.hash = none) :
    (self.insertNode block content).hashToNode.IsFinal hash ↔ self.hashToNode.IsFinal hash := by
  refine (exists_insertNode fresh fun _ _ => Iff.rfl).trans (or_iff_left ?_)
  rintro ⟨_, ⟨⟩⟩

theorem held_of_insertNode (fresh : self.hashToNode.lookup block.hash = none)
    (held : (self.insertNode block content).hashToNode.Held hash) (old : hash ≠ block.hash) :
    self.hashToNode.Held hash := by
  obtain ⟨node', found⟩ := held
  obtain ⟨node, before, _⟩ := insertNode_origin fresh found old
  exact ⟨node, before⟩

theorem finalHead_insertNode : (self.insertNode block content).finalHead = self.finalHead := by
  cases known : self.hashToNode.lookup block.prevHash <;>
    simp [RecentBlocksTracker.insertNode, known]

theorem insertNode (links : Links given self) (streams : chain.Streams (given ++ [block]))
    (fresh : self.hashToNode.lookup block.hash = none) :
    Links (given ++ [block]) (self.insertNode block content) where
  forest := forest_insertNode links.forest fresh
  origin := by
    intro hash node' found
    by_cases isNew : hash = block.hash
    · rw [lookup_insertNode fresh, if_pos isNew] at found
      cases found
      refine ⟨block, by simp, isNew.symm, rfl, fun p isParent => ?_⟩
      obtain ⟨above, _, isPrev⟩ := Option.map_eq_some_iff.mp isParent
      exact isPrev
    · obtain ⟨node, before, same, _⟩ := insertNode_origin fresh found isNew
      obtain ⟨b, isGiven, hashes, high, prev⟩ := links.origin before
      rw [same]
      exact ⟨b, List.mem_append_left _ isGiven, hashes, high, prev⟩
  linked := by
    intro b p isB isP prev heldB heldP
    rw [up_insertNode fresh]
    have up : BlockUp chain.Holds b p := ⟨streams.holds isB, streams.holds isP, prev⟩
    have notNew : p.hash ≠ block.hash := by
      intro same
      have isBlock := chain.hash_injective up.2.1 (streams.holds (by simp)) same
      subst isBlock
      obtain early | last := List.mem_append.mp isB
      · exact streams.newest early (.single up)
      · rw [List.mem_singleton.mp last] at up
        exact Nat.lt_irrefl _ (chain.height_lt up)
    have wasHeld := held_of_insertNode fresh heldP notNew
    by_cases isNew : b.hash = block.hash
    · have isBlock := chain.hash_injective up.1 (streams.holds (by simp)) isNew
      subst isBlock
      rw [← prev] at wasHeld
      exact .inr ⟨rfl, prev.symm, wasHeld⟩
    · have early : ∀ c ∈ given ++ [block], c.hash ≠ block.hash → c ∈ given := by
        intro c inside other
        obtain early | last := List.mem_append.mp inside
        · exact early
        · exact absurd (congrArg BlockViewLite.hash (List.mem_singleton.mp last)) other
      exact .inl (links.linked (early b isB isNew) (early p isP notNew) prev
        (held_of_insertNode fresh heldB isNew) wasHeld)
  closed := by
    intro child parent final up
    rw [isFinal_insertNode fresh] at final ⊢
    obtain up | ⟨rfl, _⟩ := (up_insertNode fresh).mp up
    · exact links.closed child parent final up
    · obtain ⟨node, found, _⟩ := final
      cases found.symm.trans fresh
  head := by
    intro f isHead
    rw [finalHead_insertNode] at isHead
    obtain ⟨final, b, isGiven, declared⟩ := links.head isHead
    exact ⟨(isFinal_insertNode fresh).mpr final, b, List.mem_append_left _ isGiven, declared⟩

section

variable (links : Links given self) (streams : chain.Streams given)

include links streams

theorem block_up (up : self.hashToNode.Up c p) :
    ∃ b ∈ given, ∃ above ∈ given, b.hash = c ∧ above.hash = p ∧ BlockUp chain.Holds b above := by
  obtain ⟨parent, foundParent, _⟩ := BlockNodes.Forest.parent links.forest up
  obtain ⟨node, found, isParent⟩ := up
  obtain ⟨b, isB, hashes, _, prev⟩ := links.origin found
  obtain ⟨above, isAbove, hashes', _, _⟩ := links.origin foundParent
  exact ⟨b, isB, above, isAbove, hashes, hashes',
    streams.holds isB, streams.holds isAbove, (prev p isParent).trans hashes'.symm⟩

theorem block_climb (isB : b ∈ given) (climb : ReflTransGen self.hashToNode.Up b.hash hash) :
    ∃ above ∈ given, above.hash = hash ∧ chain.Climbs b above := by
  induction climb with
  | refl => exact ⟨b, isB, rfl, .refl⟩
  | tail _ up ih =>
    obtain ⟨middle, isMiddle, same, climb⟩ := ih
    obtain ⟨other, isOther, above, isAbove, same', hashes, blockUp⟩ := links.block_up streams up
    have equal := chain.hash_injective (streams.holds isOther) (streams.holds isMiddle)
      (same'.trans same.symm)
    subst equal
    exact ⟨above, isAbove, hashes, climb.tail blockUp⟩

theorem height_eq (isB : b ∈ given)
    (found : self.hashToNode.lookup b.hash = some node) : node.height = b.height := by
  obtain ⟨other, isOther, hashes, heights, _⟩ := links.origin found
  rw [chain.hash_injective (streams.holds isOther) (streams.holds isB) hashes] at heights
  exact heights.symm

theorem sunk_iff :
    Sunk self.hashToNode height hash ↔
      ∃ node, self.hashToNode.lookup hash = some node ∧ node.height < height := by
  constructor
  · rintro ⟨node, found, low, _⟩
    exact ⟨node, found, low⟩
  · rintro ⟨node, found, low⟩
    induction bound : node.height using Nat.strong_induction_on generalizing hash node with
    | _ n ih =>
      refine ⟨node, found, low, fun p isParent => ?_⟩
      have up : self.hashToNode.Up hash p := ⟨node, found, isParent⟩
      obtain ⟨above, foundParent, _⟩ := BlockNodes.Forest.parent links.forest up
      obtain ⟨b, isB, parent, isParent', rfl, rfl, blockUp⟩ := links.block_up streams up
      have falls := chain.height_lt blockUp
      have here := links.height_eq streams isB found
      have there := links.height_eq streams isParent' foundParent
      exact ih above.height (by omega) above foundParent (by omega) rfl

end

end Links

theorem headHeight_eq_some :
    self.headHeight head = some top ↔
      ∃ hash node, head = some hash ∧ self.hashToNode.lookup hash = some node ∧ node.height = top := by
  cases head with
  | none => simp [headHeight]
  | some hash => simp [headHeight]

/-- The window and the final head move forward only. -/
structure Rises (s t : RecentBlocksTracker T) : Prop where
  window : s.windowStart ≤ t.windowStart
  head {top : Nat} : s.headHeight s.finalHead = some top →
    ∃ top', t.headHeight t.finalHead = some top' ∧ top ≤ top'

theorem Rises.trans (first : Rises s t) (second : Rises t u) :
    Rises s u where
  window := first.window.trans second.window
  head isTop := by
    obtain ⟨top', isTop', higher⟩ := first.head isTop
    obtain ⟨top'', isTop'', highest⟩ := second.head isTop'
    exact ⟨top'', isTop'', higher.trans highest⟩

def floor (self : RecentBlocksTracker T) : Nat := self.minimumHeightToKeep.getD 0

theorem floor_le_windowStart : self.floor ≤ self.windowStart := by
  cases isTop : self.headHeight self.finalHead <;> simp [floor, minimumHeightToKeep, isTop]

theorem Rises.floor_le (rises : Rises self t) : self.floor ≤ t.floor := by
  have window := rises.window
  cases isTop : self.headHeight self.finalHead with
  | none => simp [floor, minimumHeightToKeep, isTop]
  | some top =>
    obtain ⟨top', isTop', higher⟩ := rises.head isTop
    simp only [floor, minimumHeightToKeep, isTop, isTop', Option.map_some, Option.getD_some]
    omega

theorem rises_of_kept (window : self.windowStart ≤ t.windowStart)
    (heads : t.finalHead = self.finalHead)
    (kept : ∀ hash node, self.hashToNode.lookup hash = some node →
      ∃ node', t.hashToNode.lookup hash = some node' ∧ node'.height = node.height) :
    Rises self t where
  window := window
  head isTop := by
    obtain ⟨hash, node, isHead, found, rfl⟩ := headHeight_eq_some.mp isTop
    obtain ⟨node', found', heights⟩ := kept hash node found
    exact ⟨_, headHeight_eq_some.mpr ⟨hash, node', heads.trans isHead, found', heights⟩, le_rfl⟩

theorem maybeUpdateFinalHead_ok (updated : self.maybeUpdateFinalHead f = some (t, newFinalBlocks)) :
    t = self ∧ newFinalBlocks = [] ∨
      ∃ node nodes passed last, self.hashToNode.lookup f = some node ∧
      Finalised self.hashToNode (some f) nodes passed last ∧ newFinalBlocks = passed.reverse ∧
      t = { self with
        hashToNode := nodes
        finalHead := if (self.headHeight self.finalHead).all (· < node.height) then some f
          else self.finalHead } := by
  unfold maybeUpdateFinalHead at updated
  split at updated
  · cases updated
    exact .inl ⟨rfl, rfl⟩
  · rename_i node found
    simp only [bind_some_iff] at updated
    obtain ⟨⟨nodes, passed, last⟩, climbed, done⟩ := updated
    cases done
    exact .inr ⟨node, nodes, passed, last, found, climbed_of_climb climbed, rfl, rfl⟩

theorem sameLinks_finalise (updated : self.maybeUpdateFinalHead f = some (t, newFinalBlocks)) :
    SameLinks self.hashToNode t.hashToNode := by
  obtain ⟨rfl, _⟩ | ⟨node, nodes, passed, last, _, finalised, _, rfl⟩ :=
    maybeUpdateFinalHead_ok updated
  · exact fun _ => rfl
  · exact Climbed.sameLinks finalised fun _ => rfl

theorem Links.finalise (links : Links given self) (declared : ∃ b ∈ given, b.lastFinalBlock = f)
    (updated : self.maybeUpdateFinalHead f = some (t, newFinalBlocks)) : Links given t := by
  obtain ⟨rfl, _⟩ | ⟨node, nodes, passed, last, _, finalised, _, rfl⟩ :=
    maybeUpdateFinalHead_ok updated
  · exact links
  · refine links.of_sameLinks (Climbed.sameLinks finalised fun _ => rfl) rfl ?_ ?_
    · exact Finalised.closed finalised fun child parent final up => .inl (links.closed _ _ final up)
    · intro g isHead
      simp only at isHead
      split at isHead
      · cases isHead
        exact ⟨Finalised.isFinal_start finalised, declared⟩
      · obtain ⟨final, others⟩ := links.head isHead
        exact ⟨Finalised.isFinal_of finalised final, others⟩

theorem rises_finalise (updated : self.maybeUpdateFinalHead f = some (t, newFinalBlocks)) :
    Rises self t := by
  obtain ⟨rfl, _⟩ | ⟨node, nodes, passed, last, found, finalised, _, rfl⟩ :=
    maybeUpdateFinalHead_ok updated
  · exact ⟨le_rfl, fun isTop => ⟨_, isTop, le_rfl⟩⟩
  · have same := Climbed.sameLinks finalised fun _ => rfl
    refine ⟨le_rfl, fun {top} isTop => ?_⟩
    obtain ⟨head, headNode, isHead, foundHead, rfl⟩ := headHeight_eq_some.mp isTop
    by_cases newer : headNode.height < node.height
    · obtain ⟨node', there, heights, _⟩ := same.node found
      refine ⟨node.height, headHeight_eq_some.mpr ⟨f, node', ?_, there, heights⟩, newer.le⟩
      simp [isTop, newer]
    · obtain ⟨node', there, heights, _⟩ := same.node foundHead
      refine ⟨headNode.height, headHeight_eq_some.mpr ⟨head, node', ?_, there, heights⟩, le_rfl⟩
      simpa [isTop, newer] using isHead

/-- Only canonical flags and the canonical head differ. -/
structure Recoloured (s t : RecentBlocksTracker T) : Prop where
  nodes : SameFinality s.hashToNode t.hashToNode
  rootChildren : t.rootChildren = s.rootChildren
  finalHead : t.finalHead = s.finalHead
  window : t.windowStart = s.windowStart

theorem updateCanonicalHead_ok (updated : self.updateCanonicalHead head = some t) :
    Recoloured self t := by
  simp only [updateCanonicalHead, bind_some_iff] at updated
  obtain ⟨⟨marked, _, common⟩, up, ⟨unmarked, _, _⟩, down, done⟩ := updated
  cases done
  refine ⟨fun hash => ?_, rfl, rfl, rfl⟩
  have first : (marked.lookup hash).map (BlockNode.storeCanonical false) =
      (self.hashToNode.lookup hash).map (BlockNode.storeCanonical false) :=
    (climbed_of_climb up).same (fun _ => rfl) hash
  exact ((climbed_of_climb down).same (fun _ => rfl) hash).trans first

theorem Recoloured.rises (recoloured : Recoloured self t) : Rises self t :=
  rises_of_kept recoloured.window.ge recoloured.finalHead fun _ _ found => by
    obtain ⟨node', there, heights, _⟩ := recoloured.nodes.sameLinks.node found
    exact ⟨node', there, heights⟩

theorem rises_raised (higher : self.maximumHeightAvailable ≤ height) :
    Rises self { self with maximumHeightAvailable := height } := by
  refine rises_of_kept ?_ rfl fun _ node found => ⟨node, found, rfl⟩
  simp only [windowStart]
  omega

theorem Links.raised (links : Links given self) (height : Nat) :
    Links given { self with maximumHeightAvailable := height } :=
  links.of_sameFinality (fun _ => rfl) rfl rfl

theorem rises_insertNode (fresh : self.hashToNode.lookup block.hash = none) :
    Rises self (self.insertNode block content) := by
  have window : (self.insertNode block content).windowStart = self.windowStart := by
    cases known : self.hashToNode.lookup block.prevHash <;> simp [insertNode, known, windowStart]
  refine rises_of_kept window.ge Links.finalHead_insertNode fun _ _ found => ?_
  obtain ⟨children, after, _⟩ := lookup_insertNode_held fresh found
  exact ⟨_, after, rfl⟩

theorem followHighest_ok (followed : self.followHighest block = some t) : Recoloured self t := by
  unfold followHighest at followed
  split at followed
  · exact updateCanonicalHead_ok followed
  · cases followed
    exact ⟨fun _ => rfl, rfl, rfl, rfl⟩

theorem addBlock_ok (added : self.addBlock block content = some (.ok (t, reported))) :
    self.hashToNode.lookup block.hash = none ∧ ∃ finalised newFinalBlocks headed,
      (self.insertNode block content).maybeUpdateFinalHead block.lastFinalBlock =
        some (finalised, newFinalBlocks) ∧
      finalised.followHighest block = some headed ∧
      { headed with
        maximumHeightAvailable := max block.height headed.maximumHeightAvailable }.pruneOldBlocks =
          some t ∧
      reported = finalised.finalBlocks newFinalBlocks := by
  unfold addBlock at added
  split at added
  · cases added
  · rename_i fresh
    simp only [bind_some_iff] at added
    obtain ⟨⟨finalised, newFinalBlocks⟩, updated, headed, followed, pruned, isPruned, done⟩ := added
    cases done
    exact ⟨by simpa using fresh, finalised, newFinalBlocks, headed, updated, followed, isPruned, rfl⟩

/-- Above the floor every given block is held, below it none is. -/
structure Tracks (given : List BlockViewLite) (tracker : RecentBlocksTracker T) : Prop where
  links : Links given tracker
  present {b : BlockViewLite} : b ∈ given → tracker.floor ≤ b.height → tracker.hashToNode.Held b.hash
  high {hash : CryptoHash} {node : BlockNode} :
    tracker.hashToNode.lookup hash = some node → tracker.floor ≤ node.height

theorem isFinal_cut (cut : Cut height nodes nodes') :
    nodes'.IsFinal hash ↔ nodes.IsFinal hash ∧ ¬ Sunk nodes height hash := by
  exact cut.exists_iff fun _ _ => Iff.rfl

theorem held_cut (cut : Cut height nodes nodes') :
    nodes'.Held hash ↔ nodes.Held hash ∧ ¬ Sunk nodes height hash := by
  simpa [Held] using cut.exists_iff (P := fun _ => True) fun _ _ => Iff.rfl

/-- The final head is never below the lowest height to keep. -/
theorem head_stays (minimum : self.minimumHeightToKeep = some height)
    (isHead : self.finalHead = some f) : ¬ Sunk self.hashToNode height f := by
  rintro ⟨node, found, low, _⟩
  have isTop : self.headHeight self.finalHead = some node.height :=
    headHeight_eq_some.mpr ⟨f, node, isHead, found, rfl⟩
  simp only [minimumHeightToKeep, isTop, Option.map_some, Option.some.injEq] at minimum
  omega

theorem Links.cut (links : Links given self) (minimum : self.minimumHeightToKeep = some height)
    (view : SameView self t) (cut : Cut height self.hashToNode t.hashToNode) (forest : t.Forest) :
    Links given t where
  forest := forest
  origin found := by
    obtain ⟨node, before, _, same, parents⟩ := cut.node found
    obtain ⟨b, isGiven, hashes, heights, prev⟩ := links.origin before
    rw [same]
    exact ⟨b, isGiven, hashes, heights, fun p isParent => prev p ((parents p).mp isParent).1⟩
  linked isB isP prev heldB heldP :=
    cut.up_iff.mpr ⟨links.linked isB isP prev ((held_cut cut).mp heldB).1 ((held_cut cut).mp heldP).1,
      ((held_cut cut).mp heldP).2⟩
  closed child parent final up := by
    rw [isFinal_cut cut] at final ⊢
    obtain ⟨up, stays⟩ := cut.up_iff.mp up
    exact ⟨links.closed child parent final.1 up, stays⟩
  head isHead := by
    rw [view.finalHead] at isHead
    obtain ⟨final, declared⟩ := links.head isHead
    exact ⟨(isFinal_cut cut).mpr ⟨final, head_stays minimum isHead⟩, declared⟩

theorem rises_cut (minimum : self.minimumHeightToKeep = some height) (view : SameView self t)
    (cut : Cut height self.hashToNode t.hashToNode) :
    Rises self t ∧ t.minimumHeightToKeep = some height := by
  have window : t.windowStart = self.windowStart := by
    simp [windowStart, view.maximumHeightAvailable, view.windowSize]
  have head : ∀ {top}, self.headHeight self.finalHead = some top →
      t.headHeight t.finalHead = some top := by
    intro top isTop
    obtain ⟨f, node, isHead, found, rfl⟩ := headHeight_eq_some.mp isTop
    obtain ⟨parent, after, _⟩ := cut.kept found (head_stays minimum isHead)
    exact headHeight_eq_some.mpr ⟨f, _, view.finalHead.trans isHead, after, rfl⟩
  refine ⟨⟨window.ge, fun isTop => ⟨_, head isTop, le_rfl⟩⟩, ?_⟩
  simp only [minimumHeightToKeep, Option.map_eq_some_iff] at minimum ⊢
  obtain ⟨top, isTop, rfl⟩ := minimum
  exact ⟨top, head isTop, by rw [window]⟩

theorem Links.prune (links : Links given self) (streams : chain.Streams given)
    (present : ∀ b ∈ given, self.floor ≤ b.height → self.hashToNode.Held b.hash)
    (pruned : self.pruneOldBlocks = some t) :
    Tracks given t ∧ Rises self t ∧
      (∀ b ∈ given, self.hashToNode.Held b.hash → t.hashToNode.Held b.hash ∨ b.height < t.windowStart) ∧
      ∀ hash, t.hashToNode.IsFinal hash → self.hashToNode.IsFinal hash := by
  cases minimum : self.minimumHeightToKeep with
  | none =>
    rw [pruneOldBlocks_none minimum pruned]
    have ground : self.floor = 0 := by simp [floor, minimum]
    exact ⟨⟨links, present _, fun _ => by omega⟩, ⟨le_rfl, fun isTop => ⟨_, isTop, le_rfl⟩⟩,
      fun _ _ => .inl, fun _ => id⟩
  | some height =>
    obtain ⟨view, cut, forest⟩ := pruneOldBlocks_ok links.forest minimum pruned
    obtain ⟨rises, again⟩ := rises_cut minimum view cut
    have before : self.floor = height := by simp [floor, minimum]
    have after : t.floor = height := by simp [floor, again]
    refine ⟨⟨links.cut minimum view cut forest, ?_, ?_⟩, rises, ?_, ?_⟩
    · intro b isB above
      have held := present b isB (by omega)
      refine (held_cut cut).mpr ⟨held, fun sunk => ?_⟩
      obtain ⟨node, found, low⟩ := (links.sunk_iff streams).mp sunk
      have := links.height_eq streams isB found
      omega
    · intro hash node found
      obtain ⟨old, was, stays, same, _⟩ := cut.node found
      rw [same]
      by_contra low
      exact stays ((links.sunk_iff streams).mpr ⟨old, was, by simpa [after] using low⟩)
    · intro b isB held
      by_cases sunk : Sunk self.hashToNode height b.hash
      · obtain ⟨node, found, low⟩ := (links.sunk_iff streams).mp sunk
        have := links.height_eq streams isB found
        have := t.floor_le_windowStart
        exact .inr (by omega)
      · exact .inl ((held_cut cut).mpr ⟨held, sunk⟩)
    · intro hash final
      exact ((isFinal_cut cut).mp final).1

variable {b : BlockViewLite}

theorem Tracks.final_of_climb (tracks : Tracks given self) (streams : chain.Streams given)
    (isB : b ∈ given) (isTop : top ∈ given) (held : self.hashToNode.Held b.hash)
    (final : self.hashToNode.IsFinal top.hash) (climb : chain.Climbs top b) :
    self.hashToNode.IsFinal b.hash := by
  obtain ⟨node, found⟩ := held
  have above := tracks.high found
  rw [tracks.links.height_eq streams isB found] at above
  induction climb using ReflTransGen.head_induction_on with
  | refl => exact final
  | head up climb ih =>
    rename_i child parent
    have isParent := streams.gapless isTop isB (.single up) climb
    have higher := Climbing.rank_le Blockchain.falls climb
    have heldParent := tracks.present isParent (above.trans higher)
    have linked := tracks.links.linked isTop isParent up.2.2 final.held heldParent
    exact ih isParent (tracks.links.closed _ _ final linked)

/-- Held, not final and not above the final head. -/
def Rejected (self : RecentBlocksTracker T) (b : BlockViewLite) : Prop :=
  self.hashToNode.Held b.hash ∧ ¬ self.hashToNode.IsFinal b.hash ∧
    ∃ top, self.headHeight self.finalHead = some top ∧ b.height ≤ top

/-- No chain that is final later contains the block, or the block has left the window. -/
def Gone (self : RecentBlocksTracker T) (b : BlockViewLite) : Prop :=
  b.height < self.windowStart ∨ self.Rejected b

/-- A rejected block is on no chain that is declared final later. -/
theorem Tracks.rejected_finalise (tracks : Tracks given self)
    (streams : chain.Streams (given ++ [block]))
    (fresh : self.hashToNode.lookup block.hash = none) (isB : b ∈ given)
    (rejected : self.Rejected b)
    (updated : (self.insertNode block content).maybeUpdateFinalHead block.lastFinalBlock =
      some (finalised, newFinalBlocks)) : ¬ finalised.hashToNode.IsFinal b.hash := by
  obtain ⟨held, notFinal, top, isTop, low⟩ := rejected
  have inserted : Links (given ++ [block]) (self.insertNode block content) :=
    tracks.links.insertNode streams fresh
  have stillNot : ¬ (self.insertNode block content).hashToNode.IsFinal b.hash :=
    mt (Links.isFinal_insertNode fresh).mp notFinal
  obtain ⟨rfl, _⟩ | ⟨node, nodes, passed, last, found, isFinalised, _, rfl⟩ :=
    maybeUpdateFinalHead_ok updated
  · exact stillNot
  · intro final
    obtain already | ⟨first, isFirst, climb⟩ := Finalised.origin isFinalised final
    · exact stillNot already
    · cases isFirst
      -- both final heads lie on one chain, so the block is an ancestor of the old one as well
      obtain ⟨declared, isDeclared, hashes, _⟩ := inserted.origin found
      rw [← hashes] at climb
      obtain ⟨above, isAbove, same, climb⟩ := inserted.block_climb streams isDeclared climb
      have inside := List.mem_append_left [block] isB
      cases chain.hash_injective (streams.holds isAbove) (streams.holds inside) same
      obtain ⟨f, headNode, isHead, foundHead, rfl⟩ := headHeight_eq_some.mp isTop
      obtain ⟨headFinal, declarer, isDeclarer, isLast⟩ := tracks.links.head isHead
      obtain ⟨head, isGiven, rfl, heights, _⟩ := tracks.links.origin foundHead
      have onChain : chain.Climbs head b := by
        obtain down | up := chain.final_chain (streams.init.holds isDeclarer)
          (streams.holds (by simp)) (streams.init.holds isGiven) (streams.holds isDeclared) isLast
          hashes.symm
        · exact down.trans climb
        · exact Climbing.climb_of_rank_le Blockchain.up_unique Blockchain.falls up climb (by omega)
      exact notFinal (tracks.final_of_climb streams.init isB isGiven held headFinal onChain)

theorem Tracks.gone_of_kept (rises : Rises self t)
    (kept : t.hashToNode.Held b.hash ∨ b.height < t.windowStart)
    (notFinal : ¬ t.hashToNode.IsFinal b.hash) (rejected : self.Rejected b) : t.Gone b := by
  obtain ⟨_, _, top, isTop, low⟩ := rejected
  obtain ⟨top', isTop', higher⟩ := rises.head isTop
  obtain held | old := kept
  · exact .inr ⟨held, notFinal, top', isTop', low.trans higher⟩
  · exact .inl old

theorem Tracks.addBlock (tracks : Tracks given self) (streams : chain.Streams (given ++ [block]))
    (added : self.addBlock block content = some (.ok (t, reported))) :
    Tracks (given ++ [block]) t ∧ ∀ b ∈ given, self.Gone b → t.Gone b := by
  obtain ⟨fresh, finalised, newFinalBlocks, headed, updated, followed, pruned, _⟩ := addBlock_ok added
  have recoloured := followHighest_ok followed
  have inserted : Links (given ++ [block]) (self.insertNode block content) :=
    tracks.links.insertNode streams fresh
  have linked : Links (given ++ [block]) headed :=
    (inserted.finalise ⟨block, by simp, rfl⟩ updated).of_sameFinality recoloured.nodes
      recoloured.rootChildren recoloured.finalHead
  have raised : Rises self { headed with
      maximumHeightAvailable := max block.height headed.maximumHeightAvailable } :=
    (rises_insertNode fresh).trans ((rises_finalise updated).trans
      (recoloured.rises.trans (rises_raised (le_max_right _ _))))
  have held : ∀ hash, (self.insertNode block content).hashToNode.Held hash →
      headed.hashToNode.Held hash := fun hash was =>
    recoloured.nodes.sameLinks.held ((sameLinks_finalise updated).held was)
  have stays : ∀ b ∈ given, self.hashToNode.Held b.hash → headed.hashToNode.Held b.hash := by
    rintro b isB ⟨node, found⟩
    obtain ⟨children, after, _⟩ := lookup_insertNode_held fresh found
    exact held b.hash ⟨_, after⟩
  obtain ⟨tracked, rises, kept, finals⟩ := (linked.raised _).prune streams (fun b isB above => by
    obtain early | last := List.mem_append.mp isB
    · exact stays b early (tracks.present early (raised.floor_le.trans above))
    · rw [List.mem_singleton.mp last]
      exact held block.hash ⟨_, by rw [lookup_insertNode fresh, if_pos rfl]⟩) pruned
  refine ⟨tracked, fun b isB gone => ?_⟩
  obtain old | rejected := gone
  · exact .inl (old.trans_le (raised.trans rises).window)
  · refine Tracks.gone_of_kept (raised.trans rises)
      (kept b (List.mem_append_left _ isB) (stays b isB rejected.1)) (fun final => ?_) rejected
    exact tracks.rejected_finalise streams fresh isB rejected updated
      (recoloured.nodes.symm.isFinal (finals _ final))

theorem held_of_refused (refused : self.addBlock block content = some (.error reason)) :
    self.hashToNode.Held block.hash := by
  unfold RecentBlocksTracker.addBlock at refused
  split at refused
  · rename_i there
    exact Option.isSome_iff_exists.mp there
  · simp only [bind_some_iff] at refused
    obtain ⟨_, _, _, _, _, _, done⟩ := refused
    cases done

theorem Tracks.refused (tracks : Tracks given self) (streams : chain.Streams (given ++ [block]))
    (refused : self.addBlock block content = some (.error reason)) :
    Tracks (given ++ [block]) self := by
  obtain ⟨node, found⟩ := held_of_refused refused
  obtain ⟨b, isB, hashes, _⟩ := tracks.links.origin found
  have again : block ∈ given := by
    rwa [← chain.hash_injective (streams.init.holds isB) (streams.holds (by simp)) hashes]
  have early : ∀ c ∈ given ++ [block], c ∈ given := by
    intro c inside
    obtain early | last := List.mem_append.mp inside
    · exact early
    · rwa [List.mem_singleton.mp last]
  refine ⟨⟨tracks.links.forest, fun found => ?_, fun isB isP => ?_, tracks.links.closed, fun isHead => ?_⟩,
    fun isB => tracks.present (early _ isB), tracks.high⟩
  · obtain ⟨b, isB, rest⟩ := tracks.links.origin found
    exact ⟨b, List.mem_append_left _ isB, rest⟩
  · exact tracks.links.linked (early _ isB) (early _ isP)
  · obtain ⟨final, b, isB, declared⟩ := tracks.links.head isHead
    exact ⟨final, b, List.mem_append_left _ isB, declared⟩

theorem Tracks.notify (tracks : Tracks given self) (streams : chain.Streams given)
    (notified : self.notifyMaximumHeightAvailable height = some t) :
    Tracks given t ∧ ∀ b ∈ given, self.Gone b → t.Gone b := by
  unfold notifyMaximumHeightAvailable at notified
  split at notified
  · rename_i higher
    have raised : Rises self { self with maximumHeightAvailable := height } :=
      rises_raised higher.le
    obtain ⟨tracked, rises, kept, finals⟩ := (tracks.links.raised height).prune streams
      (fun b isB above => tracks.present isB (raised.floor_le.trans above)) notified
    refine ⟨tracked, fun b isB gone => ?_⟩
    obtain old | rejected := gone
    · exact .inl (old.trans_le (raised.trans rises).window)
    · exact Tracks.gone_of_kept (raised.trans rises) (kept b isB rejected.1)
        (fun final => rejected.2.1 (finals _ final)) rejected
  · cases notified
    exact ⟨tracks, fun _ _ => id⟩

theorem tracks_new (windowSize : Nat) : Tracks [] (new windowSize : RecentBlocksTracker T) where
  links := {
    forest := {
      parent := by
        rintro c p ⟨node, found, _⟩
        cases found
      child := by
        intro c p above found
        cases found
      root := by
        intro r
        constructor
        · intro isRoot
          cases isRoot
        · rintro ⟨node, found, _⟩
          cases found }
    origin := by
      intro hash node found
      cases found
    linked := by
      intro b p isB
      cases isB
    closed := by
      rintro child parent ⟨node, found, _⟩
      cases found
    head := by
      intro f isHead
      cases isHead }
  present := by
    intro b isB
    cases isB
  high := by
    intro hash node found
    cases found

theorem gone_of_classify (given_up : self.classifyBlock b.hash b.height = .notIncluded ∨
      self.classifyBlock b.hash b.height = .olderThanRecentWindow) : self.Gone b := by
  by_cases old : self.windowStart > b.height
  · exact .inl old
  · simp only [classifyBlock, old, if_false] at given_up
    cases found : self.hashToNode.lookup b.hash with
    | none => simp [found] at given_up
    | some node =>
      simp only [found] at given_up
      split at given_up
      · simp at given_up
      · rename_i notFinal
        split at given_up
        · rename_i low
          cases isTop : self.headHeight self.finalHead with
          | none => simp [isTop] at low
          | some top =>
            rw [isTop, Option.any_some, decide_eq_true_eq] at low
            refine .inr ⟨⟨node, found⟩, ?_, top, isTop, low⟩
            rintro ⟨other, again, final⟩
            cases found.symm.trans again
            exact notFinal final
        · split at given_up <;> simp at given_up

def Included (result : CheckBlockResult) : Prop :=
  result = .recentAndFinal ∨ result = .optimisticAndCanonical

instance (result : CheckBlockResult) : Decidable (Included result) :=
  inferInstanceAs (Decidable (_ ∨ _))

theorem not_gone_of_included (included : Included (self.classifyBlock b.hash b.height)) :
    ¬ self.Gone b := by
  intro gone
  have recent : ¬ self.windowStart > b.height := by
    intro old
    simp [Included, classifyBlock, old] at included
  obtain old | ⟨⟨node, found⟩, notFinal, top, isTop, low⟩ := gone
  · exact recent old
  · have flag : ¬ node.isFinal := fun final => notFinal ⟨node, found, final⟩
    simp [Included, classifyBlock, recent, found, flag, isTop, low] at included

end RecentBlocksTracker

end MpcNetwork.Node
