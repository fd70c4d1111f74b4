import MpcNetwork.Lib.Climbing
import MpcNetwork.Lib.Fallible
import MpcNetwork.Node.Requests.RecentBlocksTracker

/-! # The forest of recent blocks

What the pointer loops do to the nodes they pass, and which nodes pruning takes away.  Nothing
here assumes anything about the blocks that were given.
-/

namespace MpcNetwork.Node

open Fallible Relation

namespace BlockNodes

def Up (nodes : BlockNodes) (child parent : CryptoHash) : Prop :=
  ∃ node, nodes.lookup child = some node ∧ node.parent = some parent

def IsFinal (nodes : BlockNodes) (hash : CryptoHash) : Prop :=
  ∃ node, nodes.lookup hash = some node ∧ node.isFinal

theorem up_unique (nodes : BlockNodes) : Relator.RightUnique nodes.Up := by
  rintro child p q ⟨node, found, isP⟩ ⟨other, again, isQ⟩
  cases found.symm.trans again
  exact Option.some.inj (isP.symm.trans isQ)

def links (node : BlockNode) : CryptoHash × Nat × Option CryptoHash × List CryptoHash :=
  (node.hash, node.height, node.parent, node.children)

def SameLinks (nodes nodes' : BlockNodes) : Prop :=
  ∀ hash, (nodes'.lookup hash).map links = (nodes.lookup hash).map links

theorem SameLinks.symm (same : SameLinks nodes nodes') : SameLinks nodes' nodes :=
  fun hash => (same hash).symm

theorem SameLinks.node {hash : CryptoHash} {node : BlockNode}
    (same : SameLinks nodes nodes') (found : nodes.lookup hash = some node) :
    ∃ node', nodes'.lookup hash = some node' ∧ node'.height = node.height ∧
      node'.parent = node.parent ∧ node'.children = node.children := by
  have linked := same hash
  rw [found, Option.map_some, Option.map_eq_some_iff] at linked
  obtain ⟨node', there, equal⟩ := linked
  simp only [links, Prod.mk.injEq] at equal
  exact ⟨node', there, equal.2⟩

theorem SameLinks.up {child parent : CryptoHash}
    (same : SameLinks nodes nodes') (up : nodes.Up child parent) : nodes'.Up child parent := by
  obtain ⟨node, found, isParent⟩ := up
  obtain ⟨node', there, _, parents, _⟩ := same.node found
  exact ⟨node', there, parents.trans isParent⟩

/-- The rounds of a loop that ended, from the node it is at to the node it stopped at. -/
inductive Climbed (stop : CryptoHash → BlockNode → Bool) (mark : BlockNode → BlockNode) :
    BlockNodes → Option CryptoHash → BlockNodes → List CryptoHash → Option CryptoHash → Prop where
  | ended : Climbed stop mark nodes none nodes [] none
  | stopped (current : CryptoHash) (node : BlockNode) :
      nodes.lookup current = some node → stop current node →
        Climbed stop mark nodes (some current) nodes [] (some current)
  | passing (current : CryptoHash) (node : BlockNode) :
      nodes.lookup current = some node → ¬ stop current node →
        Climbed stop mark (nodes.insert current (mark node)) node.parent nodes' passed last →
        Climbed stop mark nodes (some current) nodes' (current :: passed) last

section Climb

variable {nodes nodes' : BlockNodes} {last : Option CryptoHash} {passed : List CryptoHash}

theorem climbed_of_climb
    (climbed : climb stop mark fuel nodes start = some (nodes', passed, last)) :
    Climbed stop mark nodes start nodes' passed last := by
  induction fuel generalizing nodes start passed with
  | zero => simp [climb] at climbed
  | succ fuel ih =>
    cases start with
    | none =>
      cases climbed
      exact .ended
    | some current =>
      simp only [climb, bind_some_iff] at climbed
      obtain ⟨node, found, rest⟩ := climbed
      split at rest
      · rename_i stops
        cases rest
        exact .stopped current node found stops
      · rename_i goesOn
        rw [bind_some_iff] at rest
        obtain ⟨⟨_, further, _⟩, above, done⟩ := rest
        cases done
        exact .passing current node found goesOn (ih above)

theorem Climbed.lookup (climbed : Climbed stop mark nodes start nodes' passed last)
    (idempotent : ∀ node, mark (mark node) = mark node) (hash : CryptoHash) :
    nodes'.lookup hash =
      if hash ∈ passed then (nodes.lookup hash).map mark else nodes.lookup hash := by
  induction climbed with
  | ended => simp
  | stopped => simp
  | passing current node found _ _ ih =>
    rw [ih, Table.lookup_insert_eq]
    by_cases here : hash = current
    · subst here
      simp [found, idempotent]
    · simp [here]

theorem sameLinks_insert (found : nodes.lookup current = some node)
    (keeps : links node' = links node) : SameLinks nodes (nodes.insert current node') := by
  intro hash
  rw [Table.lookup_insert_eq]
  split
  · rename_i here
    rw [here, found, Option.map_some, Option.map_some, keeps]
  · rfl

section

variable (climbed : Climbed stop mark nodes start nodes' passed last)

include climbed

theorem Climbed.same {β : Type} {view : BlockNode → β}
    (keeps : ∀ node, view (mark node) = view node) (hash : CryptoHash) :
    (nodes'.lookup hash).map view = (nodes.lookup hash).map view := by
  induction climbed with
  | ended => rfl
  | stopped => rfl
  | passing current node found _ _ ih =>
    rw [ih, Table.lookup_insert_eq]
    split
    · rename_i here
      rw [here, found, Option.map_some, Option.map_some, keeps]
    · rfl

theorem Climbed.sameLinks
    (keeps : ∀ node, links (mark node) = links node) : SameLinks nodes nodes' :=
  climbed.same keeps

theorem Climbed.climbs (keeps : ∀ node, links (mark node) = links node) {hash : CryptoHash}
    (inside : hash ∈ passed) :
    ∃ first, start = some first ∧ ReflTransGen nodes.Up first hash := by
  induction climbed with
  | ended => cases inside
  | stopped => cases inside
  | passing current node found _ _ ih =>
    refine ⟨current, rfl, ?_⟩
    obtain rfl | later := List.mem_cons.mp inside
    · exact .refl
    · obtain ⟨p, isParent, climb⟩ := ih later
      have back := (sameLinks_insert found (keeps node)).symm
      exact .head ⟨node, found, isParent⟩ (ReflTransGen.mono (fun _ _ => back.up) _ _ climb)

end

/-- The parent of a final node is final, except perhaps one. -/
def FinalClosedBut (nodes : BlockNodes) (pending : Option CryptoHash) : Prop :=
  ∀ child parent, nodes.IsFinal child → nodes.Up child parent →
    nodes.IsFinal parent ∨ pending = some parent

def FinalClosed (nodes : BlockNodes) : Prop :=
  ∀ child parent, nodes.IsFinal child → nodes.Up child parent → nodes.IsFinal parent

end Climb

section Finalise

variable {nodes nodes' : BlockNodes} {last : Option CryptoHash} {passed : List CryptoHash}
  {hash : CryptoHash}

/-- The loop that marks a block and its ancestors final. -/
abbrev Finalised := Climbed (fun _ node => node.isFinal) BlockNode.storeFinal

theorem isFinal_mark (found : nodes.lookup current = some node) :
    IsFinal (nodes.insert current node.storeFinal) hash ↔
      nodes.IsFinal hash ∨ hash = current := by
  simp only [IsFinal, Table.lookup_insert_eq]
  by_cases here : hash = current
  · subst here
    simp [BlockNode.storeFinal]
  · simp [here]

theorem Finalised.isFinal_of (finalised : Finalised nodes start nodes' passed last)
    (already : nodes.IsFinal hash) : nodes'.IsFinal hash := by
  induction finalised with
  | ended => exact already
  | stopped => exact already
  | passing current node found _ _ ih => exact ih ((isFinal_mark found).mpr (.inl already))

theorem Finalised.isFinal_start (finalised : Finalised nodes (some hash) nodes' passed last) :
    nodes'.IsFinal hash := by
  cases finalised with
  | stopped _ _ found final => exact ⟨_, found, final⟩
  | passing _ _ found _ rest => exact Finalised.isFinal_of rest ((isFinal_mark found).mpr (.inr rfl))

theorem Finalised.origin (finalised : Finalised nodes start nodes' passed last)
    (final : nodes'.IsFinal hash) :
    nodes.IsFinal hash ∨ ∃ first, start = some first ∧ ReflTransGen nodes.Up first hash := by
  obtain ⟨node, found, isFinal⟩ := final
  rw [Climbed.lookup finalised fun _ => rfl] at found
  split at found
  · rename_i inside
    exact .inr (Climbed.climbs finalised (fun _ => rfl) inside)
  · exact .inl ⟨node, found, isFinal⟩

theorem Finalised.closed (finalised : Finalised nodes start nodes' passed last)
    (closed : nodes.FinalClosedBut start) : nodes'.FinalClosed := by
  induction finalised with
  | ended =>
    intro child parent final up
    exact (closed child parent final up).resolve_right nofun
  | stopped current node found isFinal =>
    intro child parent final up
    obtain done | pending := closed child parent final up
    · exact done
    · cases pending
      exact ⟨_, found, isFinal⟩
  | passing current node found _ _ ih =>
    apply ih
    intro child parent final up
    have keeps : links node.storeFinal = links node := rfl
    have back := (sameLinks_insert found keeps).symm.up up
    obtain before | here := (isFinal_mark found).mp final
    · obtain done | pending := closed child parent before back
      · exact .inl ((isFinal_mark found).mpr (.inl done))
      · exact .inl ((isFinal_mark found).mpr (.inr (Option.some.inj pending).symm))
    · subst here
      obtain ⟨_, again, isParent⟩ := back
      cases found.symm.trans again
      exact .inr isParent

end Finalise

/-- Every node of the tree from this one up to the root is lower than `height`. -/
inductive Sunk (nodes : BlockNodes) (height : Nat) : CryptoHash → Prop where
  | mk {self : CryptoHash} (node : BlockNode) (found : nodes.lookup self = some node)
      (low : node.height < height)
      (above : ∀ parent, node.parent = some parent → Sunk nodes height parent) :
      Sunk nodes height self

/-- The second node is reached from the first by way of low nodes, and is low. -/
inductive Sinks (nodes : BlockNodes) (height : Nat) : CryptoHash → CryptoHash → Prop where
  | here (node : BlockNode) (found : nodes.lookup self = some node) (low : node.height < height) :
      Sinks nodes height self self
  | beneath (node : BlockNode) (found : nodes.lookup self = some node) (low : node.height < height)
      (child : CryptoHash) (isChild : child ∈ node.children)
      (rest : Sinks nodes height child target) : Sinks nodes height self target

/-- The second node is reached from the first by way of low nodes, and is the first high one. -/
inductive Surfaces (nodes : BlockNodes) (height : Nat) : CryptoHash → CryptoHash → Prop where
  | here (node : BlockNode) (found : nodes.lookup self = some node) (high : height ≤ node.height) :
      Surfaces nodes height self self
  | beneath (node : BlockNode) (found : nodes.lookup self = some node) (low : node.height < height)
      (child : CryptoHash) (isChild : child ∈ node.children)
      (rest : Surfaces nodes height child target) : Surfaces nodes height self target

/-- What was collected on the way from one state of a search to another. -/
structure Adds (before after : Collected) (old closest : CryptoHash → Prop) : Prop where
  oldNodes (hash : CryptoHash) : hash ∈ after.oldNodes ↔ hash ∈ before.oldNodes ∨ old hash
  descendants (hash : CryptoHash) :
    hash ∈ after.descendantsOutput ↔ hash ∈ before.descendantsOutput ∨ closest hash

theorem adds_foldlM {old closest : CryptoHash → CryptoHash → Prop} {selves : List CryptoHash}
    (collected : selves.foldlM f before = some after)
    (each : ∀ before self after, f before self = some after →
      Adds before after (old self) (closest self)) :
    Adds before after (fun hash => ∃ self ∈ selves, old self hash)
      (fun hash => ∃ self ∈ selves, closest self hash) := by
  induction selves generalizing before with
  | nil =>
    cases collected
    exact ⟨by simp, by simp⟩
  | cons self selves ih =>
    simp only [List.foldlM_cons, bind_some_iff] at collected
    obtain ⟨middle, first, rest⟩ := collected
    have one := each _ _ _ first
    have others := ih rest
    constructor
    · intro hash
      rw [others.oldNodes, one.oldNodes, or_assoc]
      simp
    · intro hash
      rw [others.descendants, one.descendants, or_assoc]
      simp

theorem adds_closest (collected :
      closestDescendantsWithHeightAtLeast nodes height fuel before self = some after) :
    Adds before after (Sinks nodes height self) (Surfaces nodes height self) := by
  induction fuel generalizing before after self with
  | zero => simp [closestDescendantsWithHeightAtLeast] at collected
  | succ fuel ih =>
    simp only [closestDescendantsWithHeightAtLeast, bind_some_iff] at collected
    obtain ⟨node, found, rest⟩ := collected
    split at rest
    · rename_i high
      cases rest
      constructor
      · intro hash
        refine ⟨.inl, fun either => either.resolve_right fun sinks => ?_⟩
        cases sinks with
        | here _ again low => cases found.symm.trans again; omega
        | beneath _ again low => cases found.symm.trans again; omega
      · intro hash
        rw [List.mem_append, List.mem_singleton]
        refine or_congr_right ⟨?_, fun surfaces => ?_⟩
        · rintro rfl
          exact .here node found high
        · cases surfaces with
          | here => rfl
          | beneath _ again low => cases found.symm.trans again; omega
    · rename_i low
      have low : node.height < height := by omega
      have adds := adds_foldlM rest fun _ _ _ => ih
      constructor
      · intro hash
        rw [adds.oldNodes, List.mem_append, List.mem_singleton, or_assoc]
        refine or_congr_right ⟨?_, fun sinks => ?_⟩
        · rintro (rfl | ⟨child, isChild, sinks⟩)
          · exact .here node found low
          · exact .beneath node found low child isChild sinks
        · cases sinks with
          | here => exact .inl rfl
          | beneath _ again _ child isChild sinks =>
            cases found.symm.trans again
            exact .inr ⟨child, isChild, sinks⟩
      · intro hash
        rw [adds.descendants]
        refine or_congr_right ⟨?_, fun surfaces => ?_⟩
        · rintro ⟨child, isChild, surfaces⟩
          exact .beneath node found low child isChild surfaces
        · cases surfaces with
          | here _ again high => cases found.symm.trans again; omega
          | beneath _ again _ child isChild surfaces =>
            cases found.symm.trans again
            exact ⟨child, isChild, surfaces⟩

/-- Parents and children agree, and the roots are the nodes without a parent. -/
structure Forest (nodes : BlockNodes) (roots : List CryptoHash) : Prop where
  parent {c p : CryptoHash} : nodes.Up c p → ∃ above, nodes.lookup p = some above ∧ c ∈ above.children
  child {c p : CryptoHash} {above : BlockNode} :
    nodes.lookup p = some above → c ∈ above.children → nodes.Up c p
  root {r : CryptoHash} : r ∈ roots ↔ ∃ node, nodes.lookup r = some node ∧ node.parent = none

section Prune

variable {nodes : BlockNodes} {roots : List CryptoHash} {height : Nat} {hash root : CryptoHash}

theorem Sinks.step (sinks : Sinks nodes height root hash)
    (parent : nodes.lookup hash = some above) (isChild : child ∈ above.children)
    (found : nodes.lookup child = some node) (low : node.height < height) :
    Sinks nodes height root child := by
  induction sinks with
  | here _ again lower =>
    cases parent.symm.trans again
    exact .beneath above parent lower child isChild (.here node found low)
  | beneath _ found' lower next isNext _ ih =>
    exact .beneath _ found' lower next isNext (ih parent)

theorem Sinks.surface (sinks : Sinks nodes height root hash)
    (parent : nodes.lookup hash = some above) (isChild : child ∈ above.children)
    (found : nodes.lookup child = some node) (high : height ≤ node.height) :
    Surfaces nodes height root child := by
  induction sinks with
  | here _ again lower =>
    cases parent.symm.trans again
    exact .beneath above parent lower child isChild (.here node found high)
  | beneath _ found' lower next isNext _ ih =>
    exact .beneath _ found' lower next isNext (ih parent)

section

variable (forest : Forest nodes roots)

include forest

theorem Forest.sunk_above {parent child : CryptoHash}
    (found : nodes.lookup parent = some above) (isChild : child ∈ above.children)
    (sunk : Sunk nodes height parent) : ∀ p, nodes.Up child p → Sunk nodes height p := by
  intro p up
  rw [nodes.up_unique up (forest.child found isChild)]
  exact sunk

theorem Forest.sunk_of_sinks (sinks : Sinks nodes height root hash)
    (above : ∀ p, nodes.Up root p → Sunk nodes height p) : Sunk nodes height hash := by
  induction sinks with
  | here node found low => exact ⟨node, found, low, fun p isParent => above p ⟨node, found, isParent⟩⟩
  | beneath node found low child isChild _ ih =>
    apply ih
    apply forest.sunk_above found isChild
    exact ⟨node, found, low, fun p isParent => above p ⟨node, found, isParent⟩⟩

theorem Forest.above_of_surfaces (surfaces : Surfaces nodes height root hash)
    (above : ∀ p, nodes.Up root p → Sunk nodes height p) :
    (∃ node, nodes.lookup hash = some node ∧ height ≤ node.height) ∧
      ∀ p, nodes.Up hash p → Sunk nodes height p := by
  induction surfaces with
  | here node found high => exact ⟨⟨node, found, high⟩, above⟩
  | beneath node found low child isChild _ ih =>
    apply ih
    apply forest.sunk_above found isChild
    exact ⟨node, found, low, fun p isParent => above p ⟨node, found, isParent⟩⟩

theorem Forest.not_up_root (isRoot : root ∈ roots) :
    ¬ nodes.Up root p := by
  rintro ⟨node, found, isParent⟩
  obtain ⟨other, again, none⟩ := forest.root.mp isRoot
  cases found.symm.trans again
  cases isParent.symm.trans none

/-- The old nodes found below the roots are those with only low nodes above them. -/
theorem Forest.sinks_iff :
    (∃ root ∈ roots, Sinks nodes height root hash) ↔ Sunk nodes height hash := by
  constructor
  · rintro ⟨root, isRoot, sinks⟩
    exact forest.sunk_of_sinks sinks fun p up => absurd up (forest.not_up_root isRoot)
  · intro sunk
    induction sunk with
    | mk node found low _ ih =>
      cases isParent : node.parent with
      | none => exact ⟨_, forest.root.mpr ⟨node, found, isParent⟩, .here node found low⟩
      | some p =>
        obtain ⟨root, isRoot, sinks⟩ := ih p isParent
        obtain ⟨above, foundParent, isChild⟩ := forest.parent ⟨node, found, isParent⟩
        exact ⟨root, isRoot, sinks.step foundParent isChild found low⟩

theorem Forest.surfaces_iff :
    (∃ root ∈ roots, Surfaces nodes height root hash) ↔
      (∃ node, nodes.lookup hash = some node ∧ height ≤ node.height) ∧
        ∀ p, nodes.Up hash p → Sunk nodes height p := by
  constructor
  · rintro ⟨root, isRoot, surfaces⟩
    exact forest.above_of_surfaces surfaces fun p up => absurd up (forest.not_up_root isRoot)
  · rintro ⟨⟨node, found, high⟩, above⟩
    cases isParent : node.parent with
    | none => exact ⟨hash, forest.root.mpr ⟨node, found, isParent⟩, .here node found high⟩
    | some p =>
      obtain ⟨root, isRoot, sinks⟩ := forest.sinks_iff.mpr (above p ⟨node, found, isParent⟩)
      obtain ⟨parent, foundParent, isChild⟩ := forest.parent ⟨node, found, isParent⟩
      exact ⟨root, isRoot, sinks.surface foundParent isChild found high⟩

/-- A sunk node hangs below a low root. -/
theorem Forest.low_root (sunk : Sunk nodes height hash) :
    ∃ root ∈ roots, ∃ node, nodes.lookup root = some node ∧ node.height < height := by
  obtain ⟨root, isRoot, sinks⟩ := forest.sinks_iff.mpr sunk
  refine ⟨root, isRoot, ?_⟩
  cases sinks with
  | here node found low => exact ⟨node, found, low⟩
  | beneath node found low => exact ⟨node, found, low⟩

end

end Prune

theorem Forest.sameLinks {roots : List CryptoHash}
    (forest : Forest nodes roots) (same : SameLinks nodes nodes') : Forest nodes' roots where
  parent up := by
    obtain ⟨above, found, isChild⟩ := forest.parent (same.symm.up up)
    obtain ⟨above', there, _, _, children⟩ := same.node found
    exact ⟨above', there, children ▸ isChild⟩
  child found isChild := by
    obtain ⟨above, there, _, _, children⟩ := same.symm.node found
    exact same.up (forest.child there (children ▸ isChild))
  root := by
    intro root
    rw [forest.root]
    constructor
    · rintro ⟨node, found, none⟩
      obtain ⟨node', there, _, parents, _⟩ := same.node found
      exact ⟨node', there, parents.trans none⟩
    · rintro ⟨node', there, none⟩
      obtain ⟨node, found, _, parents, _⟩ := same.symm.node there
      exact ⟨node, found, parents.trans none⟩

/-- The nodes that stay when everything sunk is taken away: only parents are lost. -/
structure Cut (height : Nat) (nodes nodes' : BlockNodes) : Prop where
  kept {hash : CryptoHash} {node : BlockNode} (found : nodes.lookup hash = some node)
    (stays : ¬ Sunk nodes height hash) :
    ∃ parent, nodes'.lookup hash = some { node with parent } ∧
      ∀ p, parent = some p ↔ node.parent = some p ∧ ¬ Sunk nodes height p
  gone {hash : CryptoHash} (sunk : Sunk nodes height hash) : nodes'.lookup hash = none
  origin {hash : CryptoHash} {node' : BlockNode} (found : nodes'.lookup hash = some node') :
    ∃ node, nodes.lookup hash = some node

namespace Cut

variable {height : Nat} {nodes nodes' : BlockNodes} {hash child parent : CryptoHash}

theorem node (cut : Cut height nodes nodes') {node' : BlockNode}
    (found : nodes'.lookup hash = some node') :
    ∃ node, nodes.lookup hash = some node ∧ ¬ Sunk nodes height hash ∧
      node' = { node with parent := node'.parent } ∧
      ∀ p, node'.parent = some p ↔ node.parent = some p ∧ ¬ Sunk nodes height p := by
  obtain ⟨node, before⟩ := cut.origin found
  have stays : ¬ Sunk nodes height hash := fun sunk => by cases found.symm.trans (cut.gone sunk)
  obtain ⟨parent, after, parents⟩ := cut.kept before stays
  cases found.symm.trans after
  exact ⟨node, before, stays, rfl, parents⟩

theorem up_iff (cut : Cut height nodes nodes') :
    nodes'.Up child parent ↔
      nodes.Up child parent ∧ ¬ Sunk nodes height parent := by
  constructor
  · rintro ⟨node', found, isParent⟩
    obtain ⟨node, before, _, _, parents⟩ := cut.node found
    obtain ⟨was, stays⟩ := (parents parent).mp isParent
    exact ⟨⟨node, before, was⟩, stays⟩
  · rintro ⟨⟨node, found, isParent⟩, stays⟩
    have childStays : ¬ Sunk nodes height child := by
      rintro ⟨other, again, _, above⟩
      cases found.symm.trans again
      exact stays (above parent isParent)
    obtain ⟨p, after, parents⟩ := cut.kept found childStays
    exact ⟨_, after, (parents parent).mpr ⟨isParent, stays⟩⟩

theorem exists_iff {P : BlockNode → Prop} (cut : Cut height nodes nodes')
    (blind : ∀ node parent, P { node with parent } ↔ P node) :
    (∃ node, nodes'.lookup hash = some node ∧ P node) ↔
      (∃ node, nodes.lookup hash = some node ∧ P node) ∧ ¬ Sunk nodes height hash := by
  constructor
  · rintro ⟨node', found, holds⟩
    obtain ⟨node, before, stays, same, _⟩ := cut.node found
    rw [same] at holds
    exact ⟨⟨node, before, (blind _ _).mp holds⟩, stays⟩
  · rintro ⟨⟨node, found, holds⟩, stays⟩
    obtain ⟨parent, after, _⟩ := cut.kept found stays
    exact ⟨_, after, (blind _ _).mpr holds⟩

end Cut

theorem Forest.cut (forest : Forest nodes roots) (cut : Cut height nodes nodes')
    (roots_iff : ∀ root, root ∈ roots' ↔
      (∃ node, nodes.lookup root = some node ∧ height ≤ node.height) ∧
      ∀ p, nodes.Up root p → Sunk nodes height p) :
    Forest nodes' roots' where
  parent up := by
    obtain ⟨was, stays⟩ := cut.up_iff.mp up
    obtain ⟨above, found, isChild⟩ := forest.parent was
    obtain ⟨_, after, _⟩ := cut.kept found stays
    exact ⟨_, after, isChild⟩
  child found isChild := by
    obtain ⟨above, before, stays, same, _⟩ := cut.node found
    rw [same] at isChild
    exact cut.up_iff.mpr ⟨forest.child before isChild, stays⟩
  root := by
    intro root
    rw [roots_iff]
    constructor
    · rintro ⟨⟨node, found, high⟩, above⟩
      have stays : ¬ Sunk nodes height root := by
        rintro ⟨other, again, low, _⟩
        cases found.symm.trans again
        omega
      obtain ⟨parent, after, parents⟩ := cut.kept found stays
      refine ⟨_, after, Option.eq_none_iff_forall_ne_some.mpr fun p isParent => ?_⟩
      obtain ⟨was, high⟩ := (parents p).mp isParent
      exact high (above p ⟨node, found, was⟩)
    · rintro ⟨node', found, none⟩
      obtain ⟨node, before, stays, _, parents⟩ := cut.node found
      have above : ∀ p, node.parent = some p → Sunk nodes height p := by
        intro p isParent
        by_contra high
        cases none.symm.trans ((parents p).mpr ⟨isParent, high⟩)
      refine ⟨⟨node, before, ?_⟩, ?_⟩
      · by_contra low
        exact stays ⟨node, before, by omega, above⟩
      · rintro p ⟨other, again, isParent⟩
        cases before.symm.trans again
        exact above p isParent

end BlockNodes

namespace RecentBlocksTracker

open BlockNodes

variable {T : Type} {self t : RecentBlocksTracker T} {height : Nat}

def Forest (self : RecentBlocksTracker T) : Prop := BlockNodes.Forest self.hashToNode self.rootChildren

structure SameView (s t : RecentBlocksTracker T) : Prop where
  windowSize : t.windowSize = s.windowSize
  canonicalHead : t.canonicalHead = s.canonicalHead
  finalHead : t.finalHead = s.finalHead
  maximumHeightAvailable : t.maximumHeightAvailable = s.maximumHeightAvailable

theorem mem_rootHeights (isRoot : root ∈ self.rootChildren)
    (found : self.hashToNode.lookup root = some node) : node.height ∈ self.rootHeights :=
  List.mem_filterMap.mpr ⟨root, isRoot, by simp [headHeight, found]⟩

theorem not_sunk_of_rootHeights (forest : self.Forest)
    (high : self.rootHeights.min?.getD 0 ≥ height) (hash : CryptoHash) :
    ¬ Sunk self.hashToNode height hash := by
  intro sunk
  obtain ⟨root, isRoot, node, found, low⟩ := BlockNodes.Forest.low_root forest sunk
  have inside := mem_rootHeights isRoot found
  cases least : self.rootHeights.min? with
  | none =>
    rw [List.min?_eq_none_iff] at least
    rw [least] at inside
    cases inside
  | some m =>
    have below := (List.min?_eq_some_iff.mp least).2 _ inside
    rw [least, Option.getD_some] at high
    omega

theorem cut_of_not_sunk (none : ∀ hash, ¬ Sunk nodes height hash) :
    Cut height nodes nodes where
  kept found _ := ⟨_, found, fun p => ⟨fun isParent => ⟨isParent, none p⟩, And.left⟩⟩
  gone sunk := absurd sunk (none _)
  origin found := ⟨_, found⟩

theorem cut_of_collected {collected : Collected}
    (old : ∀ hash, hash ∈ collected.oldNodes ↔ Sunk nodes height hash)
    (closest : ∀ hash, hash ∈ collected.descendantsOutput ↔
      (∃ node, nodes.lookup hash = some node ∧ height ≤ node.height) ∧
      ∀ p, nodes.Up hash p → Sunk nodes height p) :
    Cut height nodes ((nodes.modifyAll collected.descendantsOutput
      BlockNode.dropParent).eraseAll collected.oldNodes) where
  kept := by
    intro hash node found stays
    rw [Table.lookup_eraseAll, if_neg (mt (old hash).mp stays),
      Table.lookup_modifyAll (f := BlockNode.dropParent) fun _ => rfl, found, Option.map_some]
    split
    · rename_i surfaced
      refine ⟨none, rfl, fun p => ⟨nofun, fun ⟨isParent, high⟩ => ?_⟩⟩
      exact absurd (((closest hash).mp surfaced).2 p ⟨node, found, isParent⟩) high
    · rename_i inner
      refine ⟨node.parent, rfl, fun p => ⟨fun isParent => ⟨isParent, fun sunk => inner ?_⟩, And.left⟩⟩
      have above : ∀ q, node.parent = some q → Sunk nodes height q := fun q isQ => by
        cases isParent.symm.trans isQ
        exact sunk
      refine (closest hash).mpr ⟨⟨node, found, ?_⟩, ?_⟩
      · by_contra low
        exact stays ⟨node, found, by omega, above⟩
      · rintro q ⟨other, again, isQ⟩
        cases found.symm.trans again
        exact above q isQ
  gone := by
    intro hash sunk
    rw [Table.lookup_eraseAll, if_pos ((old hash).mpr sunk)]
  origin := by
    intro hash node' found
    rw [Table.lookup_eraseAll] at found
    split at found
    · cases found
    · rw [Table.lookup_modifyAll (f := BlockNode.dropParent) fun _ => rfl] at found
      split at found
      · obtain ⟨node, before, _⟩ := Option.map_eq_some_iff.mp found
        exact ⟨node, before⟩
      · exact ⟨node', found⟩

theorem pruneOldBlocks_ok (forest : self.Forest) (minimum : self.minimumHeightToKeep = some height)
    (pruned : self.pruneOldBlocks = some t) :
    SameView self t ∧ Cut height self.hashToNode t.hashToNode ∧ t.Forest := by
  simp only [pruneOldBlocks, minimum] at pruned
  split at pruned
  · rename_i high
    cases pruned
    exact ⟨⟨rfl, rfl, rfl, rfl⟩, cut_of_not_sunk (not_sunk_of_rootHeights forest high), forest⟩
  · simp only [bind_some_iff] at pruned
    obtain ⟨collected, found, done⟩ := pruned
    cases done
    have adds := adds_foldlM found fun _ _ _ => adds_closest
    have old : ∀ hash, hash ∈ collected.oldNodes ↔ Sunk self.hashToNode height hash := fun hash => by
      rw [adds.oldNodes, BlockNodes.Forest.sinks_iff forest]
      simp
    have closest : ∀ hash, hash ∈ collected.descendantsOutput ↔
        (∃ node, self.hashToNode.lookup hash = some node ∧ height ≤ node.height) ∧
          ∀ p, self.hashToNode.Up hash p → Sunk self.hashToNode height p := fun hash => by
      rw [adds.descendants, BlockNodes.Forest.surfaces_iff forest]
      simp
    have cut := cut_of_collected old closest
    exact ⟨⟨rfl, rfl, rfl, rfl⟩, cut, BlockNodes.Forest.cut forest cut closest⟩

def newNode (self : RecentBlocksTracker T) (block : BlockViewLite) : BlockNode :=
  ⟨block.hash, block.height, false, false,
    (self.hashToNode.lookup block.prevHash).map fun _ => block.prevHash, []⟩

section Insert

variable {block : BlockViewLite} {hash child parent : CryptoHash}

section

variable (fresh : self.hashToNode.lookup block.hash = none)

include fresh

theorem lookup_insertNode (hash : CryptoHash) :
    (self.insertNode block content).hashToNode.lookup hash =
      if hash = block.hash then some (self.newNode block)
      else if hash = block.prevHash then
        (self.hashToNode.lookup hash).map (BlockNode.pushChild block.hash)
      else self.hashToNode.lookup hash := by
  cases known : self.hashToNode.lookup block.prevHash with
  | none =>
    simp only [insertNode, newNode, known, Option.map_none, Table.lookup_insert_eq]
    split
    · rfl
    · split
      · rename_i isParent
        rw [isParent, known, Option.map_none]
      · rfl
  | some above =>
    have apart : block.prevHash ≠ block.hash := fun same => by
      cases (same ▸ known).symm.trans fresh
    simp only [insertNode, newNode, known, Option.map_some, Table.lookup_modify,
      Table.lookup_insert_eq]
    by_cases isNew : hash = block.hash
    · simp [isNew, apart.symm]
    · simp [isNew]

theorem lookup_insertNode_held (found : self.hashToNode.lookup hash = some node) :
    ∃ children, (self.insertNode block content).hashToNode.lookup hash =
      some { node with children } ∧ ∀ c ∈ node.children, c ∈ children := by
  have old : hash ≠ block.hash := fun same => by cases found.symm.trans (same ▸ fresh)
  rw [lookup_insertNode fresh, if_neg old, found]
  split
  · exact ⟨_, rfl, fun c => List.mem_append_left _⟩
  · exact ⟨_, rfl, fun c => id⟩

theorem insertNode_origin
    (found : (self.insertNode block content).hashToNode.lookup hash = some node')
    (old : hash ≠ block.hash) :
    ∃ node, self.hashToNode.lookup hash = some node ∧
      node' = { node with children := node'.children } ∧
      ∀ c ∈ node'.children, c ∈ node.children ∨ c = block.hash ∧ hash = block.prevHash := by
  rw [lookup_insertNode fresh, if_neg old] at found
  split at found
  · rename_i isParent
    obtain ⟨node, before, rfl⟩ := Option.map_eq_some_iff.mp found
    refine ⟨node, before, rfl, fun c inside => ?_⟩
    obtain early | last := List.mem_append.mp inside
    · exact .inl early
    · exact .inr ⟨List.mem_singleton.mp last, isParent⟩
  · exact ⟨node', found, rfl, fun c => .inl⟩

/-- What does not depend on the children holds of the same nodes, and perhaps of the new one. -/
theorem exists_insertNode {P : BlockNode → Prop}
    (blind : ∀ node children, P { node with children } ↔ P node) :
    (∃ node, (self.insertNode block content).hashToNode.lookup hash = some node ∧ P node) ↔
      (∃ node, self.hashToNode.lookup hash = some node ∧ P node) ∨
        hash = block.hash ∧ P (self.newNode block) := by
  constructor
  · rintro ⟨node', found, holds⟩
    by_cases isNew : hash = block.hash
    · rw [lookup_insertNode fresh, if_pos isNew] at found
      cases found
      exact .inr ⟨isNew, holds⟩
    · obtain ⟨node, before, same, _⟩ := insertNode_origin fresh found isNew
      rw [same] at holds
      exact .inl ⟨node, before, (blind _ _).mp holds⟩
  · rintro (⟨node, found, holds⟩ | ⟨rfl, holds⟩)
    · obtain ⟨children, after, _⟩ := lookup_insertNode_held fresh found
      exact ⟨_, after, (blind _ _).mpr holds⟩
    · exact ⟨_, by rw [lookup_insertNode fresh, if_pos rfl], holds⟩

theorem up_insertNode :
    (self.insertNode block content).hashToNode.Up child parent ↔
      self.hashToNode.Up child parent ∨ child = block.hash ∧ parent = block.prevHash ∧
        ∃ above, self.hashToNode.lookup block.prevHash = some above := by
  refine (exists_insertNode fresh fun _ _ => Iff.rfl).trans (or_congr_right ?_)
  simp [newNode, and_comm, eq_comm]

end

theorem mem_rootChildren_insertNode :
    root ∈ (self.insertNode block content).rootChildren ↔ root ∈ self.rootChildren ∨
      root = block.hash ∧ self.hashToNode.lookup block.prevHash = none := by
  cases known : self.hashToNode.lookup block.prevHash <;> simp [insertNode, known]

theorem forest_insertNode (forest : self.Forest) (fresh : self.hashToNode.lookup block.hash = none) :
    (self.insertNode block content).Forest where
  parent up := by
    obtain up | ⟨rfl, rfl, above, known⟩ := (up_insertNode fresh).mp up
    · obtain ⟨above, found, isChild⟩ := BlockNodes.Forest.parent forest up
      obtain ⟨children, after, more⟩ := lookup_insertNode_held fresh found
      exact ⟨_, after, more _ isChild⟩
    · have apart : block.prevHash ≠ block.hash := fun same => by
        cases (same ▸ known).symm.trans fresh
      refine ⟨above.pushChild block.hash, ?_, List.mem_append_right _ (List.mem_singleton_self _)⟩
      rw [lookup_insertNode fresh, if_neg apart, if_pos rfl, known, Option.map_some]
  child := by
    intro c p above' found isChild
    rw [up_insertNode fresh]
    by_cases isNew : p = block.hash
    · rw [lookup_insertNode fresh, if_pos isNew] at found
      cases found
      cases isChild
    · obtain ⟨above, before, _, children⟩ := insertNode_origin fresh found isNew
      obtain early | ⟨rfl, rfl⟩ := children c isChild
      · exact .inl (BlockNodes.Forest.child forest before early)
      · exact .inr ⟨rfl, rfl, above, before⟩
  root := by
    intro root
    rw [mem_rootChildren_insertNode, BlockNodes.Forest.root forest,
      exists_insertNode (P := fun node => node.parent = none) fresh fun _ _ => Iff.rfl]
    simp [newNode]

end Insert

theorem pruneOldBlocks_none (minimum : self.minimumHeightToKeep = none)
    (pruned : self.pruneOldBlocks = some t) : t = self := by
  simp only [pruneOldBlocks, minimum] at pruned
  cases pruned
  rfl

end RecentBlocksTracker

end MpcNetwork.Node
