import MpcNetwork.Lib.Tables
import MpcNetwork.Node.Primitives

/-! # The tracker of recent blocks

The blocks that the indexer gives form a forest with parent and child pointers.  A pointer to
a node is the hash of its block: the tracker holds no two nodes of one hash, and the tree never
points at a node that was pruned.  A function that would follow a dangling pointer, or a
loop that has not ended when every node was visited, gives `none`.
-/

namespace MpcNetwork.Node

/-- A 256-bit hash; `bytes` is its content in order. -/
structure CryptoHash where
  value : BitVec 256
  deriving Repr, DecidableEq

def CryptoHash.bytes (hash : CryptoHash) : List UInt8 :=
  BigEndian.toBeBytes 32 hash.value.toNat

inductive CheckBlockResult where
  | olderThanRecentWindow
  | recentAndFinal
  | notIncluded
  | optimisticAndCanonical
  | optimisticButNotCanonical
  | unknown
  deriving Repr, DecidableEq

structure BlockNode where
  hash : CryptoHash
  height : Nat
  /-- Whether this block is currently on the canonical chain. -/
  canonical : Bool
  /-- Whether this block is on the final chain. -/
  isFinal : Bool
  parent : Option CryptoHash
  children : List CryptoHash
  deriving Repr, DecidableEq

def BlockNode.storeFinal (node : BlockNode) : BlockNode := { node with isFinal := true }

def BlockNode.storeCanonical (value : Bool) (node : BlockNode) : BlockNode :=
  { node with canonical := value }

def BlockNode.pushChild (child : CryptoHash) (node : BlockNode) : BlockNode :=
  { node with children := node.children ++ [child] }

def BlockNode.dropParent (node : BlockNode) : BlockNode := { node with parent := none }

structure BlockViewLite where
  hash : CryptoHash
  height : Nat
  prevHash : CryptoHash
  lastFinalBlock : CryptoHash
  deriving Repr, DecidableEq

abbrev BlockNodes := Table CryptoHash BlockNode

namespace BlockNodes

/-- Follow the parents and mark every node passed, up to where `stop` says so. -/
def climb (stop : CryptoHash → BlockNode → Bool) (mark : BlockNode → BlockNode) :
    Nat → BlockNodes → Option CryptoHash → Option (BlockNodes × List CryptoHash × Option CryptoHash)
  | 0, _, _ => none
  | _ + 1, nodes, none => some (nodes, [], none)
  | fuel + 1, nodes, some current => do
    let node ← nodes.lookup current
    if stop current node then
      some (nodes, [], some current)
    else
      let rest ← climb stop mark fuel (nodes.insert current (mark node)) node.parent
      some (rest.1, current :: rest.2.1, rest.2.2)

/-- No loop passes a node twice, and one more round finds that there is no parent. -/
def rounds (nodes : BlockNodes) : Nat := nodes.keys.length + 1

/-- What a search for the closest descendants has collected. -/
structure Collected where
  descendantsOutput : List CryptoHash
  oldNodes : List CryptoHash
  deriving Repr, DecidableEq

/-- The closest descendants with at least this height; the lower ones above are old. -/
def closestDescendantsWithHeightAtLeast (nodes : BlockNodes) (height : Nat) :
    Nat → Collected → CryptoHash → Option Collected
  | 0, _, _ => none
  | fuel + 1, collected, self => do
    let node ← nodes.lookup self
    if node.height ≥ height then
      some { collected with descendantsOutput := collected.descendantsOutput ++ [self] }
    else
      node.children.foldlM (closestDescendantsWithHeightAtLeast nodes height fuel)
        { collected with oldNodes := collected.oldNodes ++ [self] }

end BlockNodes

structure RecentBlocksTracker (T : Type) where
  windowSize : Nat
  /-- The nodes whose parents are not known or older than the window. -/
  rootChildren : List CryptoHash
  canonicalHead : Option CryptoHash
  finalHead : Option CryptoHash
  maximumHeightAvailable : Nat
  hashToNode : BlockNodes
  nodeToContent : Table CryptoHash T

namespace RecentBlocksTracker

variable {T : Type}

def new (windowSize : Nat) : RecentBlocksTracker T where
  windowSize
  rootChildren := []
  canonicalHead := none
  finalHead := none
  maximumHeightAvailable := 0
  hashToNode := ∅
  nodeToContent := ∅

variable (self : RecentBlocksTracker T)

def headHeight (head : Option CryptoHash) : Option Nat :=
  head.bind fun hash => (self.hashToNode.lookup hash).map BlockNode.height

/-- Mark the given block and its ancestors final, up to the first that is final already. -/
def maybeUpdateFinalHead (potentialFinalHead : CryptoHash) :
    Option (RecentBlocksTracker T × List CryptoHash) :=
  match self.hashToNode.lookup potentialFinalHead with
  | none => some (self, [])
  | some finalHeadNode => do
    let (nodes, newFinalBlocks, _) ← BlockNodes.climb (fun _ node => node.isFinal)
      BlockNode.storeFinal self.hashToNode.rounds self.hashToNode (some potentialFinalHead)
    let newer := (self.headHeight self.finalHead).all (· < finalHeadNode.height)
    let finalHead := if newer then some potentialFinalHead else self.finalHead
    some ({ self with hashToNode := nodes, finalHead }, newFinalBlocks.reverse)

/-- Move the canonical flag from the old chain to that of the new head. -/
def updateCanonicalHead (newCanonicalHead : CryptoHash) : Option (RecentBlocksTracker T) := do
  let (marked, _, commonAncestor) ← BlockNodes.climb (fun _ node => node.canonical)
    (BlockNode.storeCanonical true) self.hashToNode.rounds self.hashToNode (some newCanonicalHead)
  let (unmarked, _, _) ← BlockNodes.climb (fun hash _ => commonAncestor = some hash)
    (BlockNode.storeCanonical false) marked.rounds marked self.canonicalHead
  some { self with hashToNode := unmarked, canonicalHead := some newCanonicalHead }

/-- The canonical chain is that of the highest block seen. -/
def followHighest (block : BlockViewLite) : Option (RecentBlocksTracker T) :=
  if (self.headHeight self.canonicalHead).all (· < block.height) then
    self.updateCanonicalHead block.hash
  else some self

/-- `maximum_height_available.saturating_sub(window_size).add(1)`. -/
def windowStart : Nat := self.maximumHeightAvailable - self.windowSize + 1

/-- The lowest height to keep; the final head is never below it. -/
def minimumHeightToKeep : Option Nat :=
  (self.headHeight self.finalHead).map (min self.windowStart)

def rootHeights : List Nat :=
  self.rootChildren.filterMap fun child => self.headHeight (some child)

def pruneOldBlocks : Option (RecentBlocksTracker T) :=
  match self.minimumHeightToKeep with
  | none => some self
  | some minimumHeightToKeep =>
    if self.rootHeights.min?.getD 0 ≥ minimumHeightToKeep then
      some self
    else do
      let collected ← self.rootChildren.foldlM
        (self.hashToNode.closestDescendantsWithHeightAtLeast minimumHeightToKeep
          self.hashToNode.rounds) ⟨[], []⟩
      let cut := self.hashToNode.modifyAll collected.descendantsOutput BlockNode.dropParent
      some { self with
        rootChildren := collected.descendantsOutput
        hashToNode := cut.eraseAll collected.oldNodes
        nodeToContent := self.nodeToContent.eraseAll collected.oldNodes }

/-- Store the node of a new block below its parent, or below the root. -/
def insertNode (block : BlockViewLite) (content : T) : RecentBlocksTracker T :=
  let parent := (self.hashToNode.lookup block.prevHash).map fun _ => block.prevHash
  let node : BlockNode := ⟨block.hash, block.height, false, false, parent, []⟩
  let added := { self with
    hashToNode := self.hashToNode.insert block.hash node
    nodeToContent := self.nodeToContent.insert block.hash content }
  match parent with
  | some parent =>
    { added with hashToNode := added.hashToNode.modify parent (BlockNode.pushChild block.hash) }
  | none => { added with rootChildren := added.rootChildren ++ [block.hash] }

/-- The heights and contents of the blocks that became final. -/
def finalBlocks (newFinalBlocks : List CryptoHash) : List (Nat × T) :=
  newFinalBlocks.filterMap fun hash => do
    let node ← self.hashToNode.lookup hash
    let content ← self.nodeToContent.lookup hash
    some (node.height, content)

/-- `Except.error` is the refusal of a block that is in the tracker already. -/
def addBlock (block : BlockViewLite) (content : T) :
    Option (Except String (RecentBlocksTracker T × List (Nat × T))) :=
  if (self.hashToNode.lookup block.hash).isSome then
    some (.error "Block already exists in the tracker")
  else do
    let inserted := self.insertNode block content
    let (finalised, newFinalBlocks) ← inserted.maybeUpdateFinalHead block.lastFinalBlock
    let reported := finalised.finalBlocks newFinalBlocks
    let headed ← finalised.followHighest block
    let pruned ← { headed with
      maximumHeightAvailable := max block.height headed.maximumHeightAvailable }.pruneOldBlocks
    some (.ok (pruned, reported))

def notifyMaximumHeightAvailable (height : Nat) : Option (RecentBlocksTracker T) :=
  if height > self.maximumHeightAvailable then
    { self with maximumHeightAvailable := height }.pruneOldBlocks
  else some self

def classifyBlock (blockHash : CryptoHash) (blockHeight : Nat) : CheckBlockResult :=
  if self.windowStart > blockHeight then .olderThanRecentWindow
  else match self.hashToNode.lookup blockHash with
    | some node =>
      if node.isFinal then .recentAndFinal
      else if (self.headHeight self.finalHead).any (blockHeight ≤ ·) then .notIncluded
      else if node.canonical then .optimisticAndCanonical
      else .optimisticButNotCanonical
    | none => .unknown

end RecentBlocksTracker

end MpcNetwork.Node
