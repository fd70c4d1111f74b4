import MpcNetwork.Lib.Fallible
import MpcNetwork.Lib.Runs
import MpcNetwork.Node.Requests.Finality

/-! # The tree of recent blocks, whatever the indexer gives

Heights that fall, parents that come after their children, blocks that come twice: the loops
over the parent pointers end, the canonical flag marks the ancestors of the canonical head, and
pruning takes away neither head.
-/

namespace MpcNetwork.Node

open Relation Runs BlockNodes

namespace BlockNodes

variable {nodes : BlockNodes} {hash : CryptoHash}

def Acyclic (nodes : BlockNodes) : Prop := ∀ hash, ¬ TransGen nodes.Up hash hash

theorem SameLinks.climb (same : SameLinks nodes nodes')
    (climb : ReflTransGen nodes.Up child parent) : ReflTransGen nodes'.Up child parent :=
  ReflTransGen.mono (fun _ _ => same.up) _ _ climb

theorem SameLinks.up_eq (same : SameLinks nodes nodes') : nodes'.Up = nodes.Up := by
  funext child parent
  exact propext ⟨same.symm.up, same.up⟩

theorem Acyclic.sameLinks (acyclic : nodes.Acyclic) (same : SameLinks nodes nodes') :
    nodes'.Acyclic :=
  fun hash cycle => acyclic hash (TransGen.mono (fun _ _ => same.symm.up) _ _ cycle)

def Grounded (nodes : BlockNodes) (rank : CryptoHash → Nat) : Prop :=
  ∀ child parent, nodes.Up child parent → nodes.Held parent ∧ rank parent < rank child

theorem Grounded.sameLinks (grounded : nodes.Grounded rank) (same : SameLinks nodes nodes') :
    nodes'.Grounded rank := by
  intro child parent up
  obtain ⟨held, lower⟩ := grounded child parent (same.symm.up up)
  exact ⟨same.held held, lower⟩

theorem held_iff_mem_keys : nodes.Held hash ↔ hash ∈ nodes.keys.toFinset := by
  rw [List.mem_toFinset, ← AList.mem_keys, ← AList.lookup_isSome, Option.isSome_iff_exists]
  rfl

theorem card_keys_lt_rounds (nodes : BlockNodes) : nodes.keys.toFinset.card < nodes.rounds :=
  Nat.lt_succ_of_le (List.toFinset_card_le _)

theorem Acyclic.exists_rank (acyclic : nodes.Acyclic)
    (held : ∀ child parent, nodes.Up child parent → nodes.Held parent) :
    ∃ rank, nodes.Grounded rank ∧ ∀ hash, nodes.Held hash → rank hash + 2 ≤ nodes.rounds := by
  obtain ⟨rank, falls, low⟩ := Climbing.exists_rank acyclic nodes.keys.toFinset
  refine ⟨rank, fun child parent up => ?_, fun hash isHeld => ?_⟩
  · have above := held child parent up
    exact ⟨above, falls child parent (held_iff_mem_keys.mp above) up⟩
  · have below := low hash (held_iff_mem_keys.mp isHeld)
    have bound := card_keys_lt_rounds nodes
    omega

theorem climb_ends (keeps : ∀ node, links (mark node) = links node)
    (grounded : nodes.Grounded rank) (enough : 1 ≤ fuel)
    (low : ∀ first, start = some first → nodes.Held first ∧ rank first + 2 ≤ fuel) :
    ∃ result, climb stop mark fuel nodes start = some result := by
  induction fuel generalizing nodes start with
  | zero => omega
  | succ fuel ih =>
    cases start with
    | none => exact ⟨_, rfl⟩
    | some current =>
      obtain ⟨⟨node, found⟩, room⟩ := low current rfl
      simp only [climb, found, Option.bind_eq_bind, Option.bind_some]
      split
      · exact ⟨_, rfl⟩
      · have same := sameLinks_insert found (keeps node)
        have further : ∀ parent, node.parent = some parent →
            Held (nodes.insert current (mark node)) parent ∧ rank parent + 2 ≤ fuel := by
          intro parent isParent
          obtain ⟨held, lower⟩ := grounded current parent ⟨node, found, isParent⟩
          exact ⟨same.held held, by omega⟩
        obtain ⟨rest, ended⟩ := ih (grounded.sameLinks same) (by omega) further
        simp [ended]

theorem Acyclic.climb_ends (acyclic : nodes.Acyclic)
    (held : ∀ child parent, nodes.Up child parent → nodes.Held parent)
    (keeps : ∀ node, links (mark node) = links node)
    (isHeld : ∀ first, start = some first → nodes.Held first) :
    ∃ result, climb stop mark nodes.rounds nodes start = some result := by
  obtain ⟨rank, grounded, low⟩ := acyclic.exists_rank held
  exact BlockNodes.climb_ends keeps grounded (by simp [rounds])
    fun first isFirst => ⟨isHeld first isFirst, low first (isHeld first isFirst)⟩

theorem closest_ends {rank : CryptoHash → Nat}
    (held : ∀ parent above child, nodes.lookup parent = some above → child ∈ above.children →
      nodes.Held child ∧ rank child < rank parent)
    (collected : Collected) (isHeld : nodes.Held self)
    (low : rank self + 1 ≤ fuel) :
    ∃ result, closestDescendantsWithHeightAtLeast nodes height fuel collected self = some result := by
  induction fuel generalizing collected self with
  | zero => omega
  | succ fuel ih =>
    obtain ⟨node, found⟩ := isHeld
    simp only [closestDescendantsWithHeightAtLeast, found, Option.bind_eq_bind, Option.bind_some]
    split
    · exact ⟨_, rfl⟩
    · refine Fallible.foldlM_eq_some (fun child isChild acc => ?_) _
      obtain ⟨childHeld, lower⟩ := held self node child found isChild
      exact ih acc childHeld (by omega)

theorem Climbed.ancestors (climbed : Climbed stop mark nodes start nodes' passed last)
    (keeps : ∀ node, links (mark node) = links node) :
    (∃ first, start = some first ∧ ReflTransGen nodes.Up first hash) ↔
      hash ∈ passed ∨ ∃ top, last = some top ∧ ReflTransGen nodes.Up top hash := by
  induction climbed with
  | ended => simp
  | stopped => simp
  | passing current node found _ _ ih =>
    rw [(sameLinks_insert found (keeps node)).up_eq] at ih
    rw [List.mem_cons, or_assoc, ← ih]
    constructor
    · rintro ⟨first, isFirst, climb⟩
      cases isFirst
      obtain rfl | ⟨parent, ⟨_, again, isParent⟩, rest⟩ := ReflTransGen.cases_head climb
      · exact .inl rfl
      · cases found.symm.trans again
        exact .inr ⟨parent, isParent, rest⟩
    · rintro (rfl | ⟨parent, isParent, rest⟩)
      · exact ⟨_, rfl, .refl⟩
      · exact ⟨current, rfl, .head ⟨node, found, isParent⟩ rest⟩

theorem Climbed.reaches (climbed : Climbed stop mark nodes start nodes' passed (some hash))
    (keeps : ∀ node, links (mark node) = links node) :
    ∃ first, start = some first ∧ ReflTransGen nodes.Up first hash :=
  (climbed.ancestors keeps).mpr (.inr ⟨hash, rfl, .refl⟩)

theorem Climbed.stops_above (climbed : Climbed stop mark nodes start nodes' passed (some top))
    (keeps : ∀ node, links (mark node) = links node) (inside : hash ∈ passed) :
    TransGen nodes.Up hash top := by
  generalize isTop : some top = last at climbed
  induction climbed with
  | ended => cases inside
  | stopped => cases inside
  | passing current node found _ rest ih =>
    have same := (sameLinks_insert found (keeps node)).up_eq
    rw [same] at ih
    obtain rfl | later := List.mem_cons.mp inside
    · subst isTop
      obtain ⟨parent, isParent, climb⟩ := rest.reaches keeps
      rw [same] at climb
      exact .head' ⟨node, found, isParent⟩ climb
    · exact ih later isTop

/-- What is above a node is not the node itself. -/
theorem Acyclic.lookup_above (acyclic : nodes.Acyclic) (found : nodes.lookup current = some node)
    (keeps : links node' = links node) (above : ∃ parent, node.parent = some parent ∧
      ReflTransGen (Up (nodes.insert current node')) parent hash) :
    (nodes.insert current node').lookup hash = nodes.lookup hash := by
  obtain ⟨parent, isParent, climb⟩ := above
  rw [Table.lookup_insert_eq, if_neg]
  rintro rfl
  have back := (sameLinks_insert found keeps).symm.climb climb
  exact acyclic hash (.head' ⟨node, found, isParent⟩ back)

/-- Without a cycle, no node that was passed met the condition to stop, and the last one does. -/
theorem Climbed.stop_iff (climbed : Climbed stop mark nodes start nodes' passed last)
    (keeps : ∀ node, links (mark node) = links node) (acyclic : nodes.Acyclic) :
    (∀ hash ∈ passed, ∃ node, nodes.lookup hash = some node ∧ ¬ stop hash node) ∧
      ∀ hash, last = some hash → ∃ node, nodes.lookup hash = some node ∧ stop hash node := by
  induction climbed with
  | ended => simp
  | stopped current node found isStop =>
    refine ⟨by simp, ?_⟩
    rintro _ ⟨⟩
    exact ⟨node, found, isStop⟩
  | passing current node found goesOn rest ih =>
    have same := sameLinks_insert found (keeps node)
    obtain ⟨passes, stops⟩ := ih (acyclic.sameLinks same)
    refine ⟨List.forall_mem_cons.mpr ⟨⟨node, found, goesOn⟩, fun hash later => ?_⟩, ?_⟩
    · rw [← acyclic.lookup_above found (keeps node) (rest.climbs keeps later)]
      exact passes hash later
    · rintro hash rfl
      rw [← acyclic.lookup_above found (keeps node) (rest.reaches keeps)]
      exact stops hash rfl

def IsCanonical (nodes : BlockNodes) (hash : CryptoHash) : Prop :=
  ∃ node, nodes.lookup hash = some node ∧ node.canonical

/-- The canonical blocks are the head and its ancestors. -/
def Coloured (nodes : BlockNodes) (head : Option CryptoHash) : Prop :=
  ∀ hash, nodes.IsCanonical hash ↔ ∃ top, head = some top ∧ ReflTransGen nodes.Up top hash

theorem Coloured.of_same (coloured : nodes.Coloured head) (same : SameLinks nodes nodes')
    (flags : ∀ hash, (nodes'.lookup hash).map BlockNode.canonical =
      (nodes.lookup hash).map BlockNode.canonical) : nodes'.Coloured head := by
  intro hash
  have flag : ∀ nodes : BlockNodes,
      nodes.IsCanonical hash ↔ (nodes.lookup hash).map BlockNode.canonical = some true := by
    simp [IsCanonical]
  rw [flag, flags, ← flag, same.up_eq]
  exact coloured hash

theorem isCanonical_marked
    (climbed : Climbed stop (BlockNode.storeCanonical true) nodes start nodes' passed last)
    (acyclic : nodes.Acyclic) :
    nodes'.IsCanonical hash ↔ hash ∈ passed ∨ nodes.IsCanonical hash := by
  simp only [IsCanonical, climbed.lookup fun _ => rfl]
  by_cases inside : hash ∈ passed
  · obtain ⟨node, found, _⟩ := (climbed.stop_iff (fun _ => rfl) acyclic).1 hash inside
    simp [inside, found, BlockNode.storeCanonical]
  · simp [inside]

theorem isCanonical_unmarked
    (climbed : Climbed stop (BlockNode.storeCanonical false) nodes start nodes' passed last) :
    nodes'.IsCanonical hash ↔ nodes.IsCanonical hash ∧ hash ∉ passed := by
  simp only [IsCanonical, climbed.lookup fun _ => rfl]
  by_cases inside : hash ∈ passed
  · simp [inside, BlockNode.storeCanonical]
  · simp [inside]

/-- Marking up to the first canonical block and unmarking the old chain moves the flag. -/
theorem Coloured.move (coloured : nodes.Coloured old) (acyclic : nodes.Acyclic)
    (up : Climbed (fun _ node => node.canonical) (BlockNode.storeCanonical true) nodes (some new)
      marked passed common)
    (down : Climbed (fun hash _ => common = some hash) (BlockNode.storeCanonical false) marked old
      unmarked dropped last) : unmarked.Coloured (some new) := by
  have sameUp : SameLinks nodes marked := up.sameLinks fun _ => rfl
  have sameDown : SameLinks marked unmarked := down.sameLinks fun _ => rfl
  have downStops := down.stop_iff (fun _ => rfl) (acyclic.sameLinks sameUp)
  have fresh : ∀ hash ∈ passed, ¬ nodes.IsCanonical hash := by
    rintro hash inside ⟨node, found, isCanonical⟩
    obtain ⟨_, again, goesOn⟩ := (up.stop_iff (fun _ => rfl) acyclic).1 hash inside
    cases found.symm.trans again
    exact goesOn isCanonical
  have ancestors (hash : CryptoHash) :
      nodes.IsCanonical hash ↔ hash ∈ dropped ∨ ∃ top, last = some top ∧ ReflTransGen nodes.Up top hash := by
    rw [coloured hash, ← sameUp.up_eq]
    exact down.ancestors fun _ => rfl
  have stopsAt : ∀ top, last = some top → common = some top := by
    intro top isLast
    obtain ⟨_, _, isStop⟩ := downStops.2 top isLast
    exact of_decide_eq_true isStop
  have meets : last = common := by
    cases last with
    | some top => exact (stopsAt top rfl).symm
    | none =>
      cases common with
      | none => rfl
      | some c =>
        obtain ⟨node, found, isCanonical⟩ := (up.stop_iff (fun _ => rfl) acyclic).2 c rfl
        obtain isDropped | ⟨_, none, _⟩ := (ancestors c).mp ⟨node, found, isCanonical⟩
        · obtain ⟨_, _, goesOn⟩ := downStops.1 c isDropped
          exact absurd (decide_eq_true rfl) goesOn
        · cases none
  intro hash
  rw [isCanonical_unmarked down, isCanonical_marked up acyclic, sameDown.up_eq, sameUp.up_eq,
    up.ancestors fun _ => rfl]
  subst meets
  constructor
  · rintro ⟨inside | was, stays⟩
    · exact .inl inside
    · exact .inr (((ancestors hash).mp was).resolve_left stays)
  · rintro (inside | ⟨top, isTop, climb⟩)
    · refine ⟨.inl inside, fun isDropped => ?_⟩
      exact fresh hash inside ((ancestors hash).mpr (.inl isDropped))
    · refine ⟨.inr ((ancestors hash).mpr (.inr ⟨top, isTop, climb⟩)), fun isDropped => ?_⟩
      subst isTop
      have above := down.stops_above (fun _ => rfl) isDropped
      rw [sameUp.up_eq] at above
      exact acyclic hash (above.trans_left climb)

section Cut

theorem Sunk.climb (sunk : Sunk nodes height a) (climb : ReflTransGen nodes.Up a b) :
    Sunk nodes height b := by
  induction climb with
  | refl => exact sunk
  | tail _ up ih =>
    obtain ⟨node, found, isParent⟩ := up
    obtain ⟨_, again, _, above⟩ := ih
    cases found.symm.trans again
    exact above _ isParent

theorem Cut.climb_iff (cut : Cut height nodes nodes') (stays : ¬ Sunk nodes height a) :
    ReflTransGen nodes'.Up a b ↔ ReflTransGen nodes.Up a b ∧ ¬ Sunk nodes height b := by
  constructor
  · intro climb
    induction climb with
    | refl => exact ⟨.refl, stays⟩
    | tail _ up ih =>
      obtain ⟨was, high⟩ := cut.up_iff.mp up
      exact ⟨ih.1.tail was, high⟩
  · rintro ⟨climb, high⟩
    induction climb with
    | refl => exact .refl
    | tail _ up ih =>
      have below : ¬ Sunk nodes height _ := fun sunk => high (sunk.climb (.single up))
      exact (ih below).tail (cut.up_iff.mpr ⟨up, high⟩)

theorem Cut.acyclic (cut : Cut height nodes nodes') (acyclic : nodes.Acyclic) : nodes'.Acyclic :=
  fun hash cycle => acyclic hash (TransGen.mono (fun _ _ up => (cut.up_iff.mp up).1) _ _ cycle)

theorem Coloured.cut (coloured : nodes.Coloured head) (cut : Cut height nodes nodes')
    (stays : ∀ top, head = some top → ¬ Sunk nodes height top) : nodes'.Coloured head := by
  intro hash
  rw [IsCanonical, cut.exists_iff fun _ _ => Iff.rfl, ← IsCanonical, coloured hash]
  constructor
  · rintro ⟨⟨top, isHead, climb⟩, high⟩
    exact ⟨top, isHead, (cut.climb_iff (stays top isHead)).mpr ⟨climb, high⟩⟩
  · rintro ⟨top, isHead, climb⟩
    obtain ⟨was, high⟩ := (cut.climb_iff (stays top isHead)).mp climb
    exact ⟨⟨top, isHead, was⟩, high⟩

end Cut

end BlockNodes

namespace RecentBlocksTracker

variable {T : Type} {self t : RecentBlocksTracker T} {added : List BlockViewLite}
  {block : BlockViewLite}

/-- What each stage of a call keeps, whatever blocks were added. -/
structure Tree (added : List BlockViewLite) (tracker : RecentBlocksTracker T) : Prop where
  forest : tracker.Forest
  acyclic : tracker.hashToNode.Acyclic
  origin {hash : CryptoHash} {node : BlockNode} : tracker.hashToNode.lookup hash = some node →
    ∃ b ∈ added, b.hash = hash ∧ b.height = node.height
  coloured : tracker.hashToNode.Coloured tracker.canonicalHead
  canonicalHead {head : CryptoHash} : tracker.canonicalHead = some head → tracker.hashToNode.Held head
  finalHead {head : CryptoHash} : tracker.finalHead = some head → tracker.hashToNode.Held head

def Topped (added : List BlockViewLite) (tracker : RecentBlocksTracker T) : Prop :=
  ∀ b ∈ added, ∃ top, tracker.headHeight tracker.canonicalHead = some top ∧ b.height ≤ top

theorem headHeight_of_sameLinks (same : SameLinks self.hashToNode t.hashToNode)
    (head : Option CryptoHash) : t.headHeight head = self.headHeight head := by
  have heights : BlockNode.height = (fun l => l.2.1) ∘ links := rfl
  cases head with
  | none => rfl
  | some hash =>
    simp only [headHeight, Option.bind_some, heights]
    rw [← Option.map_map, same hash, Option.map_map]

namespace Tree

theorem parent_held (tree : Tree added self) (child parent : CryptoHash)
    (up : self.hashToNode.Up child parent) : self.hashToNode.Held parent := by
  obtain ⟨above, found, _⟩ := BlockNodes.Forest.parent tree.forest up
  exact ⟨above, found⟩

theorem of_sameLinks (tree : Tree added self) (same : SameLinks self.hashToNode t.hashToNode)
    (roots : t.rootChildren = self.rootChildren)
    (coloured : t.hashToNode.Coloured t.canonicalHead)
    (canonicalHead : ∀ head, t.canonicalHead = some head → self.hashToNode.Held head)
    (finalHead : ∀ head, t.finalHead = some head → self.hashToNode.Held head) : Tree added t where
  forest := by
    have forest := BlockNodes.Forest.sameLinks tree.forest same
    rwa [← roots] at forest
  acyclic := tree.acyclic.sameLinks same
  origin found := by
    obtain ⟨node, there, heights, _⟩ := same.symm.node found
    obtain ⟨b, isAdded, hashes, high⟩ := tree.origin there
    exact ⟨b, isAdded, hashes, high.trans heights⟩
  coloured := coloured
  canonicalHead isHead := same.held (canonicalHead _ isHead)
  finalHead isHead := same.held (finalHead _ isHead)

theorem climb_insertNode (tree : Tree added self)
    (fresh : self.hashToNode.lookup block.hash = none) {child hash : CryptoHash}
    (held : self.hashToNode.Held child)
    (climb : ReflTransGen (self.insertNode block content).hashToNode.Up child hash) :
    ReflTransGen self.hashToNode.Up child hash ∧ self.hashToNode.Held hash := by
  induction climb with
  | refl => exact ⟨.refl, held⟩
  | tail _ up ih =>
    obtain ⟨climb, node, found⟩ := ih
    obtain up | ⟨rfl, _⟩ := (up_insertNode fresh).mp up
    · exact ⟨climb.tail up, tree.parent_held _ _ up⟩
    · cases found.symm.trans fresh

theorem isCanonical_insertNode (fresh : self.hashToNode.lookup block.hash = none)
    {hash : CryptoHash} :
    (self.insertNode block content).hashToNode.IsCanonical hash ↔
      self.hashToNode.IsCanonical hash := by
  refine (exists_insertNode fresh fun _ _ => Iff.rfl).trans (or_iff_left ?_)
  rintro ⟨_, ⟨⟩⟩

theorem held_insertNode (fresh : self.hashToNode.lookup block.hash = none) {hash : CryptoHash}
    (held : self.hashToNode.Held hash) : (self.insertNode block content).hashToNode.Held hash := by
  obtain ⟨node, found⟩ := held
  obtain ⟨children, after, _⟩ := lookup_insertNode_held fresh found
  exact ⟨_, after⟩

theorem canonicalHead_insertNode :
    (self.insertNode block content).canonicalHead = self.canonicalHead := by
  cases known : self.hashToNode.lookup block.prevHash <;>
    simp [RecentBlocksTracker.insertNode, known]

theorem insertNode (tree : Tree added self) (fresh : self.hashToNode.lookup block.hash = none) :
    Tree (added ++ [block]) (self.insertNode block content) where
  forest := forest_insertNode tree.forest fresh
  acyclic := by
    intro hash cycle
    obtain ⟨parent, up, climb⟩ := TransGen.head'_iff.mp cycle
    obtain up | ⟨rfl, rfl, known⟩ := (up_insertNode fresh).mp up
    · have old := tree.climb_insertNode fresh (tree.parent_held _ _ up) climb
      exact tree.acyclic hash (.head' up old.1)
    · obtain ⟨node, found⟩ := (tree.climb_insertNode fresh known climb).2
      cases found.symm.trans fresh
  origin := by
    intro hash node' found
    by_cases isNew : hash = block.hash
    · rw [lookup_insertNode fresh, if_pos isNew] at found
      cases found
      exact ⟨block, by simp, isNew.symm, rfl⟩
    · obtain ⟨node, before, same, _⟩ := insertNode_origin fresh found isNew
      obtain ⟨b, isAdded, hashes, high⟩ := tree.origin before
      rw [same]
      exact ⟨b, List.mem_append_left _ isAdded, hashes, high⟩
  coloured := by
    intro hash
    rw [isCanonical_insertNode fresh, tree.coloured hash, canonicalHead_insertNode]
    constructor
    · rintro ⟨top, isHead, climb⟩
      exact ⟨top, isHead, ReflTransGen.mono (fun _ _ up => (up_insertNode fresh).mpr (.inl up)) _ _ climb⟩
    · rintro ⟨top, isHead, climb⟩
      exact ⟨top, isHead, (tree.climb_insertNode fresh (tree.canonicalHead isHead) climb).1⟩
  canonicalHead isHead := by
    rw [canonicalHead_insertNode] at isHead
    exact held_insertNode fresh (tree.canonicalHead isHead)
  finalHead isHead := by
    rw [Links.finalHead_insertNode] at isHead
    exact held_insertNode fresh (tree.finalHead isHead)

theorem finalise_ends (tree : Tree added self) (f : CryptoHash) :
    ∃ result, self.maybeUpdateFinalHead f = some result := by
  unfold maybeUpdateFinalHead
  split
  · exact ⟨_, rfl⟩
  · rename_i node found
    have ends : ∃ result, climb (fun _ node => node.isFinal) BlockNode.storeFinal
        self.hashToNode.rounds self.hashToNode (some f) = some result :=
      tree.acyclic.climb_ends tree.parent_held (fun _ => rfl)
        fun first isFirst => ⟨node, Option.some.inj isFirst ▸ found⟩
    obtain ⟨result, ended⟩ := ends
    rw [ended]
    exact ⟨_, rfl⟩

theorem finalise (tree : Tree added self)
    (updated : self.maybeUpdateFinalHead f = some (t, newFinalBlocks)) :
    Tree added t ∧ t.canonicalHead = self.canonicalHead := by
  obtain ⟨rfl, _⟩ | ⟨node, nodes, passed, last, found, finalised, _, rfl⟩ :=
    maybeUpdateFinalHead_ok updated
  · exact ⟨tree, rfl⟩
  · have same : SameLinks self.hashToNode nodes := Climbed.sameLinks finalised fun _ => rfl
    refine ⟨tree.of_sameLinks same rfl ?_ (fun _ => tree.canonicalHead) ?_, rfl⟩
    · exact tree.coloured.of_same same (Climbed.same finalised fun _ => rfl)
    · intro head isHead
      simp only at isHead
      split at isHead
      · cases isHead
        exact ⟨node, found⟩
      · exact tree.finalHead isHead

theorem recolour_ends (tree : Tree added self) (held : self.hashToNode.Held head) :
    ∃ t, self.updateCanonicalHead head = some t := by
  have up : ∃ result, climb (fun _ node => node.canonical) (BlockNode.storeCanonical true)
      self.hashToNode.rounds self.hashToNode (some head) = some result :=
    tree.acyclic.climb_ends tree.parent_held (fun _ => rfl)
      fun first isFirst => Option.some.inj isFirst ▸ held
  obtain ⟨⟨marked, passed, common⟩, marks⟩ := up
  have same : SameLinks self.hashToNode marked := (climbed_of_climb marks).sameLinks fun _ => rfl
  have down : ∃ result, climb (fun hash _ => common = some hash) (BlockNode.storeCanonical false)
      marked.rounds marked self.canonicalHead = some result := by
    refine (tree.acyclic.sameLinks same).climb_ends ?_ (fun _ => rfl) ?_
    · intro child parent step
      exact same.held (tree.parent_held child parent (same.symm.up step))
    · intro first isFirst
      exact same.held (tree.canonicalHead isFirst)
  obtain ⟨result, unmarks⟩ := down
  exact ⟨{ self with hashToNode := result.1, canonicalHead := some head },
    by simp [updateCanonicalHead, marks, unmarks]⟩

theorem recolour (tree : Tree added self) (held : self.hashToNode.Held head)
    (updated : self.updateCanonicalHead head = some t) :
    Tree added t ∧ t.canonicalHead = some head := by
  have recoloured := updateCanonicalHead_ok updated
  simp only [updateCanonicalHead, Fallible.bind_some_iff] at updated
  obtain ⟨⟨marked, _, common⟩, up, ⟨unmarked, _, _⟩, down, done⟩ := updated
  cases done
  refine ⟨tree.of_sameLinks recoloured.nodes.sameLinks rfl ?_ ?_ (fun _ => tree.finalHead), rfl⟩
  · exact tree.coloured.move tree.acyclic (climbed_of_climb up) (climbed_of_climb down)
  · intro top isHead
    cases isHead
    exact held

theorem follow (tree : Tree (added ++ [block]) self) (topped : Topped added self)
    (isBlock : ∃ node, self.hashToNode.lookup block.hash = some node ∧ node.height = block.height) :
    ∃ t, self.followHighest block = some t ∧ Tree (added ++ [block]) t ∧
      Topped (added ++ [block]) t := by
  obtain ⟨node, found, high⟩ := isBlock
  unfold followHighest
  split
  · rename_i higher
    obtain ⟨t, updated⟩ := tree.recolour_ends ⟨node, found⟩
    obtain ⟨kept, isHead⟩ := tree.recolour ⟨node, found⟩ updated
    have recoloured := updateCanonicalHead_ok updated
    have top : t.headHeight t.canonicalHead = some block.height := by
      rw [isHead, headHeight_of_sameLinks recoloured.nodes.sameLinks]
      simp [headHeight, found, high]
    refine ⟨t, updated, kept, fun b isAdded => ⟨_, top, ?_⟩⟩
    obtain early | last := List.mem_append.mp isAdded
    · obtain ⟨old, isOld, below⟩ := topped b early
      rw [isOld, Option.all_some, decide_eq_true_eq] at higher
      omega
    · rw [List.mem_singleton.mp last]
  · rename_i lower
    refine ⟨self, rfl, tree, fun b isAdded => ?_⟩
    cases isTop : self.headHeight self.canonicalHead with
    | none => simp [isTop] at lower
    | some top =>
      obtain early | last := List.mem_append.mp isAdded
      · obtain ⟨old, isOld, below⟩ := topped b early
        exact ⟨old, isTop ▸ isOld, below⟩
      · simp only [isTop, Option.all_some, decide_eq_true_eq, not_lt] at lower
        rw [List.mem_singleton.mp last]
        exact ⟨top, rfl, lower⟩

theorem prune_ends (tree : Tree added self) : ∃ t, self.pruneOldBlocks = some t := by
  -- the ranks of the search are those of the reversed relation
  have acyclic : ∀ hash, ¬ TransGen (Function.swap self.hashToNode.Up) hash hash :=
    fun hash cycle => tree.acyclic hash (transGen_swap.mp cycle)
  obtain ⟨rank, falls, low⟩ := Climbing.exists_rank acyclic self.hashToNode.keys.toFinset
  have room := card_keys_lt_rounds self.hashToNode
  have descends : ∀ parent above child, self.hashToNode.lookup parent = some above →
      child ∈ above.children → self.hashToNode.Held child ∧ rank child < rank parent := by
    intro parent above child found isChild
    have up := BlockNodes.Forest.child tree.forest found isChild
    have held : self.hashToNode.Held child := ⟨_, up.choose_spec.1⟩
    exact ⟨held, falls parent child (held_iff_mem_keys.mp held) up⟩
  unfold pruneOldBlocks
  split
  · exact ⟨_, rfl⟩
  · split
    · exact ⟨_, rfl⟩
    · rename_i height _ _
      have search : ∃ result, self.rootChildren.foldlM
          (self.hashToNode.closestDescendantsWithHeightAtLeast height self.hashToNode.rounds)
            ⟨[], []⟩ = some result := by
        refine Fallible.foldlM_eq_some (fun root isRoot acc => ?_) _
        obtain ⟨node, found, _⟩ := (BlockNodes.Forest.root tree.forest).mp isRoot
        have held : self.hashToNode.Held root := ⟨node, found⟩
        have below := low root (held_iff_mem_keys.mp held)
        exact closest_ends descends acc held (by omega)
      obtain ⟨result, collected⟩ := search
      rw [collected]
      exact ⟨_, rfl⟩

/-- The canonical head is not below the final head, which is not below the window. -/
theorem canonical_stays (tree : Tree added self) (topped : Topped added self)
    (minimum : self.minimumHeightToKeep = some height) (isHead : self.canonicalHead = some head) :
    ¬ Sunk self.hashToNode height head := by
  rintro ⟨node, found, low, _⟩
  obtain ⟨top, isTop, rfl⟩ := Option.map_eq_some_iff.mp minimum
  obtain ⟨f, finalNode, _, foundFinal, rfl⟩ := headHeight_eq_some.mp isTop
  obtain ⟨b, isAdded, _, heights⟩ := tree.origin foundFinal
  obtain ⟨highest, isHighest, below⟩ := topped b isAdded
  simp only [isHead, headHeight, Option.bind_some, found, Option.map_some, Option.some.injEq]
    at isHighest
  omega

theorem prune (tree : Tree added self) (topped : Topped added self)
    (pruned : self.pruneOldBlocks = some t) :
    Tree added t ∧ Topped added t ∧ t.windowSize = self.windowSize ∧
      t.maximumHeightAvailable = self.maximumHeightAvailable := by
  cases minimum : self.minimumHeightToKeep with
  | none =>
    rw [pruneOldBlocks_none minimum pruned]
    exact ⟨tree, topped, rfl, rfl⟩
  | some height =>
    obtain ⟨view, cut, forest⟩ := pruneOldBlocks_ok tree.forest minimum pruned
    have stays : ∀ head, self.canonicalHead = some head → ¬ Sunk self.hashToNode height head :=
      fun head => tree.canonical_stays topped minimum
    refine ⟨⟨forest, cut.acyclic tree.acyclic, ?_, ?_, ?_, ?_⟩, ?_, view.windowSize,
      view.maximumHeightAvailable⟩
    · intro hash node' found
      obtain ⟨node, before, _, same, _⟩ := cut.node found
      obtain ⟨b, isAdded, hashes, high⟩ := tree.origin before
      rw [same]
      exact ⟨b, isAdded, hashes, high⟩
    · rw [view.canonicalHead]
      exact tree.coloured.cut cut stays
    · intro head isHead
      rw [view.canonicalHead] at isHead
      exact (held_cut cut).mpr ⟨tree.canonicalHead isHead, stays head isHead⟩
    · intro head isHead
      rw [view.finalHead] at isHead
      exact (held_cut cut).mpr ⟨tree.finalHead isHead, head_stays minimum isHead⟩
    · intro b isAdded
      obtain ⟨top, isTop, below⟩ := topped b isAdded
      obtain ⟨head, node, isHead, found, rfl⟩ := headHeight_eq_some.mp isTop
      obtain ⟨parent, after, _⟩ := cut.kept found (stays head isHead)
      exact ⟨node.height, headHeight_eq_some.mpr ⟨head, _, view.canonicalHead.trans isHead, after, rfl⟩,
        below⟩

end Tree

end RecentBlocksTracker

inductive TrackerCall (T : Type) where
  | addBlock (block : BlockViewLite) (content : T)
  | notifyMaximumHeightAvailable (height : Nat)

inductive TrackerNote (T : Type) where
  | added (newFinalBlocks : List (Nat × T))
  | refused (reason : String)
  | notified

def TrackerCall.height : TrackerCall T → Nat
  | addBlock block _ => block.height
  | notifyMaximumHeightAvailable height => height

abbrev TrackerEvent (T : Type) := TrackerCall T × TrackerNote T

def TrackerEvent.addedBlock : TrackerEvent T → Option BlockViewLite
  | (.addBlock block _, .added _) => some block
  | _ => none

namespace RecentBlocksTracker

variable {T : Type} {self t : RecentBlocksTracker T} {es : List (TrackerEvent T)}

/-- One call.  `none` is a dangling pointer or a loop that does not end. -/
def act (self : RecentBlocksTracker T) : TrackerCall T → Option (RecentBlocksTracker T × TrackerNote T)
  | .addBlock block content => do
    match ← self.addBlock block content with
    | .ok (changed, newFinalBlocks) => some (changed, .added newFinalBlocks)
    | .error reason => some (self, .refused reason)
  | .notifyMaximumHeightAvailable height => do
    let changed ← self.notifyMaximumHeightAvailable height
    some (changed, .notified)

def window (self : RecentBlocksTracker T) : Nat × Nat :=
  (self.windowSize, self.maximumHeightAvailable)

variable {block : BlockViewLite}

theorem window_insertNode : (self.insertNode block content).window = self.window := by
  cases known : self.hashToNode.lookup block.prevHash <;> simp [insertNode, known, window]

theorem window_finalise (updated : self.maybeUpdateFinalHead f = some (t, newFinalBlocks)) :
    t.window = self.window := by
  obtain ⟨rfl, _⟩ | ⟨_, _, _, _, _, _, _, rfl⟩ :=
    maybeUpdateFinalHead_ok updated <;> rfl

theorem followHighest_frame (followed : self.followHighest block = some t) :
    t.window = self.window ∧ t.nodeToContent = self.nodeToContent := by
  unfold followHighest at followed
  split at followed
  · simp only [updateCanonicalHead, Fallible.bind_some_iff] at followed
    obtain ⟨_, _, _, _, done⟩ := followed
    cases done
    exact ⟨rfl, rfl⟩
  · cases followed
    exact ⟨rfl, rfl⟩

structure Sound (windowSize : Nat) (es : List (TrackerEvent T)) (tracker : RecentBlocksTracker T) :
    Prop where
  tree : Tree (es.filterMap TrackerEvent.addedBlock) tracker
  topped : Topped (es.filterMap TrackerEvent.addedBlock) tracker
  windowSize : tracker.windowSize = windowSize
  heard (bound : Nat) : 0 < bound → (∀ e ∈ es, e.1.height < bound) →
    tracker.maximumHeightAvailable < bound

theorem Topped.of_kept (topped : Topped added self) (heads : t.canonicalHead = self.canonicalHead)
    (kept : ∀ hash node, self.hashToNode.lookup hash = some node →
      ∃ node', t.hashToNode.lookup hash = some node' ∧ node'.height = node.height) :
    Topped added t := by
  intro b isAdded
  obtain ⟨top, isTop, below⟩ := topped b isAdded
  obtain ⟨head, node, isHead, found, rfl⟩ := headHeight_eq_some.mp isTop
  obtain ⟨node', found', heights⟩ := kept head node found
  exact ⟨_, headHeight_eq_some.mpr ⟨head, node', heads.trans isHead, found', heights⟩, below⟩

theorem Tree.raised (tree : Tree added self) (height : Nat) :
    Tree added { self with maximumHeightAvailable := height } :=
  tree.of_sameLinks (fun _ => rfl) rfl tree.coloured (fun _ => tree.canonicalHead)
    fun _ => tree.finalHead

theorem Tree.addBlock (tree : Tree added self) (topped : Topped added self)
    (fresh : self.hashToNode.lookup block.hash = none) (content : T) :
    ∃ t newFinalBlocks, self.addBlock block content = some (.ok (t, newFinalBlocks)) ∧
      Tree (added ++ [block]) t ∧ Topped (added ++ [block]) t ∧ t.windowSize = self.windowSize ∧
      t.maximumHeightAvailable = max block.height self.maximumHeightAvailable := by
  have inserted : Tree (added ++ [block]) (self.insertNode block content) := tree.insertNode fresh
  obtain ⟨⟨finalised, newFinalBlocks⟩, updated⟩ := inserted.finalise_ends block.lastFinalBlock
  obtain ⟨finalTree, sameHead⟩ := inserted.finalise updated
  have same := sameLinks_finalise updated
  have stillTopped : Topped added finalised := by
    refine topped.of_kept (sameHead.trans Tree.canonicalHead_insertNode) fun hash node found => ?_
    obtain ⟨children, after, _⟩ := lookup_insertNode_held fresh found
    obtain ⟨node', there, heights, _⟩ := same.node after
    exact ⟨node', there, heights⟩
  have isBlock : ∃ node, finalised.hashToNode.lookup block.hash = some node ∧
      node.height = block.height := by
    have new : (self.insertNode block content).hashToNode.lookup block.hash =
        some (self.newNode block) := by
      rw [lookup_insertNode fresh, if_pos rfl]
    obtain ⟨node', there, heights, _⟩ := same.node new
    exact ⟨node', there, heights⟩
  obtain ⟨headed, followed, headedTree, headedTop⟩ := finalTree.follow stillTopped isBlock
  have sameWindow : headed.window = self.window :=
    (followHighest_frame followed).1.trans ((window_finalise updated).trans window_insertNode)
  have raised := headedTree.raised (max block.height headed.maximumHeightAvailable)
  obtain ⟨t, pruned⟩ := raised.prune_ends
  obtain ⟨prunedTree, prunedTop, sizes, heights⟩ := raised.prune headedTop pruned
  refine ⟨t, finalised.finalBlocks newFinalBlocks, ?_, prunedTree, prunedTop, ?_, ?_⟩
  · simp [RecentBlocksTracker.addBlock, fresh, updated, followed, pruned]
  · exact sizes.trans (congrArg Prod.fst sameWindow)
  · rw [heights]
    exact congrArg (max block.height) (congrArg Prod.snd sameWindow)

theorem Tree.notify (tree : Tree added self) (topped : Topped added self) (height : Nat) :
    ∃ t, self.notifyMaximumHeightAvailable height = some t ∧ Tree added t ∧ Topped added t ∧
      t.windowSize = self.windowSize ∧
      t.maximumHeightAvailable = max height self.maximumHeightAvailable := by
  unfold notifyMaximumHeightAvailable
  split
  · obtain ⟨t, pruned⟩ := (tree.raised height).prune_ends
    obtain ⟨prunedTree, prunedTop, sizes, heights⟩ := (tree.raised height).prune topped pruned
    exact ⟨t, pruned, prunedTree, prunedTop, sizes, heights.trans (by simp only; omega)⟩
  · exact ⟨self, rfl, tree, topped, rfl, by omega⟩

theorem Sound.next {windowSize : Nat} (sound : Sound windowSize es self)
    (tree : Tree (es.filterMap TrackerEvent.addedBlock ++ e.addedBlock.toList) t)
    (topped : Topped (es.filterMap TrackerEvent.addedBlock ++ e.addedBlock.toList) t)
    (size : t.windowSize = self.windowSize)
    (heights : t.maximumHeightAvailable ≤ max e.1.height self.maximumHeightAvailable) :
    Sound windowSize (es ++ [e]) t := by
  have blocks : (es ++ [e]).filterMap TrackerEvent.addedBlock =
      es.filterMap TrackerEvent.addedBlock ++ e.addedBlock.toList := by
    cases isAdded : e.addedBlock <;> simp [isAdded]
  refine ⟨blocks ▸ tree, blocks ▸ topped, size.trans sound.windowSize, fun bound positive low => ?_⟩
  have last : e.1.height < bound := low e (by simp)
  have before := sound.heard bound positive fun e' early => low e' (List.mem_append_left _ early)
  omega

theorem Sound.step {windowSize : Nat} (sound : Sound windowSize es self) (call : TrackerCall T) :
    ∃ t note, self.act call = some (t, note) ∧ Sound windowSize (es ++ [(call, note)]) t := by
  have tree := sound.tree
  have topped := sound.topped
  cases call with
  | addBlock block content =>
    cases known : self.hashToNode.lookup block.hash with
    | some node =>
      refine ⟨self, .refused "Block already exists in the tracker", ?_, ?_⟩
      · simp [act, addBlock, known]
      · exact sound.next (by simpa [TrackerEvent.addedBlock] using tree)
          (by simpa [TrackerEvent.addedBlock] using topped) rfl (le_max_right _ _)
    | none =>
      obtain ⟨t, newFinalBlocks, added, newTree, newTop, size, height⟩ :=
        tree.addBlock topped known content
      exact ⟨t, .added newFinalBlocks, by simp [act, added],
        sound.next newTree newTop size height.le⟩
  | notifyMaximumHeightAvailable height =>
    obtain ⟨t, notified, newTree, newTop, size, heights⟩ := tree.notify topped height
    refine ⟨t, .notified, by simp [act, notified], ?_⟩
    exact sound.next (by simpa [TrackerEvent.addedBlock] using newTree)
      (by simpa [TrackerEvent.addedBlock] using newTop) size heights.le

theorem sound_new (windowSize : Nat) : Sound windowSize [] (new windowSize : RecentBlocksTracker T) where
  tree := {
    forest := (tracks_new windowSize).links.forest
    acyclic := by
      intro hash cycle
      obtain ⟨_, ⟨_, found, _⟩, _⟩ := TransGen.head'_iff.mp cycle
      cases found
    origin := by
      intro hash node found
      cases found
    coloured := by
      intro hash
      simp [IsCanonical, new]
    canonicalHead := by
      intro head isHead
      cases isHead
    finalHead := by
      intro head isHead
      cases isHead }
  topped := by
    intro b isAdded
    cases isAdded
  windowSize := rfl
  heard _ positive _ := positive

/-- Whatever is given to the tracker, no call fails, the canonical flag marks the highest head and
    its ancestors, both heads are held, and there is no cycle and no overflow. -/
theorem block_tree_sound (windowSize : Nat) (positive : 1 ≤ windowSize) (calls : List (TrackerCall T)) :
    ∃ t es, replay act (new windowSize : RecentBlocksTracker T) calls = some (t, es) ∧
      (∀ hash node, t.hashToNode.lookup hash = some node →
        (node.canonical = true ↔
          ∃ head, t.canonicalHead = some head ∧ ReflTransGen t.hashToNode.Up head hash)) ∧
      (∀ block ∈ es.filterMap TrackerEvent.addedBlock,
        ∃ top, t.headHeight t.canonicalHead = some top ∧ block.height ≤ top) ∧
      (∀ head, t.canonicalHead = some head ∨ t.finalHead = some head →
        ∃ node, t.hashToNode.lookup head = some node ∧
          ∃ block ∈ es.filterMap TrackerEvent.addedBlock,
            block.hash = head ∧ block.height = node.height) ∧
      (∀ hash, ¬ TransGen t.hashToNode.Up hash hash) ∧
      ((∀ call ∈ calls, call.height < 2 ^ 64) → t.windowStart < 2 ^ 64) := by
  obtain ⟨t, es, ran, sound⟩ :=
    replay_total (Sound windowSize) (fun _ _ call sound => sound.step call) (sound_new windowSize) calls
  rw [List.nil_append] at sound
  refine ⟨t, es, ran, ?_, sound.topped, ?_, sound.tree.acyclic, ?_⟩
  · intro hash node found
    rw [← sound.tree.coloured hash]
    simp [IsCanonical, found]
  · intro head isHead
    have held : t.hashToNode.Held head := isHead.elim sound.tree.canonicalHead sound.tree.finalHead
    obtain ⟨node, found⟩ := held
    exact ⟨node, found, sound.tree.origin found⟩
  · intro low
    have heard : t.maximumHeightAvailable < 2 ^ 64 := by
      refine sound.heard _ (by decide) fun e inside => low e.1 ?_
      rw [← inputs_of_replay ran]
      exact List.mem_map_of_mem inside
    simp only [windowStart, sound.windowSize]
    omega

/-- A block below its child, a block that comes twice and one that is its own parent. -/
private def strayCalls : List (TrackerCall Unit) :=
  [.addBlock ⟨⟨1⟩, 7, ⟨0⟩, ⟨0⟩⟩ (), .addBlock ⟨⟨2⟩, 5, ⟨1⟩, ⟨2⟩⟩ (), .addBlock ⟨⟨2⟩, 9, ⟨1⟩, ⟨1⟩⟩ (),
    .notifyMaximumHeightAvailable 20, .addBlock ⟨⟨3⟩, 3, ⟨3⟩, ⟨3⟩⟩ (), .addBlock ⟨⟨4⟩, 8, ⟨2⟩, ⟨1⟩⟩ ()]

theorem block_tree_sound_stray :
    ∃ t es, replay act (new 1 : RecentBlocksTracker Unit) strayCalls = some (t, es) ∧
      t.canonicalHead = some ⟨4⟩ ∧ t.windowStart < 2 ^ 64 := by
  obtain ⟨t, es, ran, _, _, _, _, bounded⟩ := block_tree_sound 1 (by decide) strayCalls
  have head : (replay act (new 1 : RecentBlocksTracker Unit) strayCalls).map
      (fun r => r.1.canonicalHead) = some (some ⟨4⟩) := by
    decide +kernel
  rw [ran, Option.map_some, Option.some.injEq] at head
  exact ⟨t, es, ran, head, bounded (by decide)⟩

end RecentBlocksTracker

end MpcNetwork.Node
