import Mathlib.Algebra.Group.Nat.Defs
import CalibrationLedger.Library.Digest
import CalibrationLedger.Library.HashTree

set_option autoImplicit false

namespace CalibrationLedger

open Digest HashTree

def emptyRoot (h : HashFunction) : Bytes := h.digest []

def leafHash (h : HashFunction) (data : Bytes) : Bytes := h.digest (0 :: data)

def nodeHash (h : HashFunction) (left right : Bytes) : Bytes := h.digest (1 :: (left ++ right))

-- 1 << ((size - 1).bit_length() - 1), asked only of sizes from two on.
def split (size : Nat) : Nat := 2 ^ Nat.log2 (size - 1)

theorem split_pos (size : Nat) : 0 < split size := Nat.two_pow_pos _

theorem split_lt (size : Nat) (large : 2 ≤ size) : split size < size := by
  have bound : 2 ^ Nat.log2 (size - 1) ≤ size - 1 := Nat.log2_self_le (by omega)
  unfold split
  omega

theorem split_half (size : Nat) (large : 2 ≤ size) : size ≤ 2 * split size := by
  have bound : size - 1 < 2 ^ (Nat.log2 (size - 1) + 1) := Nat.lt_log2_self
  rw [Nat.pow_succ] at bound
  unfold split
  omega

theorem split_stable (small large : Nat) (above : split large < small) (below : small ≤ large) :
    split small = split large := by
  have positive := split_pos large
  have same : Nat.log2 (small - 1) = Nat.log2 (large - 1) := by
    apply Nat.le_antisymm
    · rw [Nat.le_log2 (by omega)]
      have reach := Nat.log2_self_le (show small - 1 ≠ 0 by omega)
      omega
    · rw [Nat.le_log2 (by omega)]
      unfold split at above
      omega
  rw [split, split, same]

def merkleRoot (h : HashFunction) (leaves : List Bytes) : Bytes :=
  if leaves.length < 2 then leaves.headD (emptyRoot h)
  else
    let k := split leaves.length
    nodeHash h (merkleRoot h (leaves.take k)) (merkleRoot h (leaves.drop k))
termination_by leaves.length
decreasing_by
  · have bound := split_lt leaves.length (by omega)
    simpa using bound
  · have bound := split_pos leaves.length
    rw [List.length_drop]
    omega

abbrev InclusionStep := Sibling Bytes

def walk (h : HashFunction) (items : List Bytes) (localIndex : Nat) : List InclusionStep :=
  if items.length < 2 then []
  else
    let k := split items.length
    if localIndex < k then walk h (items.take k) localIndex ++ [⟨.right, merkleRoot h (items.drop k)⟩]
    else walk h (items.drop k) (localIndex - k) ++ [⟨.left, merkleRoot h (items.take k)⟩]
termination_by items.length
decreasing_by
  · have bound := split_lt items.length (by omega)
    simpa using bound
  · have bound := split_pos items.length
    rw [List.length_drop]
    omega

-- No result where the source raises MerkleProofError.
def inclusionProof (h : HashFunction) (leaves : List Bytes) (index : Nat) : Option (List InclusionStep) :=
  if index < leaves.length then some (walk h leaves index) else none

def collectSides (localIndex size : Nat) : List Side :=
  if size < 2 then []
  else
    let k := split size
    if localIndex < k then collectSides localIndex k ++ [.right]
    else collectSides (localIndex - k) (size - k) ++ [.left]
termination_by size
decreasing_by
  · exact split_lt size (by omega)
  · have bound := split_pos size
    omega

-- The loop over the proof: each step must stand on the side the shape asks for.
def replay (h : HashFunction) : Bytes → List InclusionStep → List Side → Option Bytes
  | current, [], [] => some current
  | current, step :: steps, expectedSide :: sides =>
      if step.hash.length ≠ 32 ∨ step.side ≠ expectedSide then none
      else
        match step.side with
        | .left => replay h (nodeHash h step.hash current) steps sides
        | .right => replay h (nodeHash h current step.hash) steps sides
  | _, _, _ => none

def verifyInclusion (h : HashFunction) (leaf : Bytes) (index treeSize : Int) (proof : List InclusionStep)
    (expectedRoot : Bytes) : Bool :=
  if 0 ≤ index ∧ index < treeSize then
    let expectedSides := collectSides index.toNat treeSize.toNat
    if proof.length ≠
      expectedSides.length then false else replay h leaf proof expectedSides == some expectedRoot
  else false

-- complete says that the walk has only ever turned left. A part of one leaf that
-- is not wholly old is never reached, where _split would refuse.
def subproof (h : HashFunction) (m : Nat) (items : List Bytes) (complete : Bool) : List Bytes :=
  if m = items.length then if complete then [] else [merkleRoot h items]
  else if items.length < 2 then []
  else
    let k := split items.length
    if m ≤ k then subproof h m (items.take k) complete ++ [merkleRoot h (items.drop k)]
    else subproof h (m - k) (items.drop k) false ++ [merkleRoot h (items.take k)]
termination_by items.length
decreasing_by
  · have bound := split_lt items.length (by omega)
    simpa using bound
  · have bound := split_pos items.length
    rw [List.length_drop]
    omega

def consistencyProof (h : HashFunction) (leaves : List Bytes) (oldSize : Nat) : Option (List Bytes) :=
  if oldSize < 1 ∨ oldSize > leaves.length then none
  else if oldSize = leaves.length then some []
  else some (subproof h oldSize leaves true)

-- while fn & 1: fn >>= 1; sn >>= 1
def stripOnes (fn sn : Nat) : Nat × Nat := if fn % 2 = 1 then stripOnes (fn / 2) (sn / 2) else (fn, sn)
termination_by fn

-- while fn and not (fn & 1): fn >>= 1; sn >>= 1
def stripZeros (fn sn : Nat) : Nat × Nat :=
  if fn ≠ 0 ∧ fn % 2 = 0 then stripZeros (fn / 2) (sn / 2) else (fn, sn)
termination_by fn

structure Walk where
  fn : Nat
  sn : Nat
  oldHash : Bytes
  newHash : Bytes

-- One round of the loop over the remaining hashes; no result where it returns False.
def advance (h : HashFunction) (walk : Walk) (item : Bytes) : Option Walk :=
  if walk.sn = 0 then none
  else if walk.fn % 2 = 1 ∨ walk.fn = walk.sn then
    let stripped := stripZeros walk.fn walk.sn
    some ⟨stripped.1 / 2, stripped.2 / 2, nodeHash h item walk.oldHash, nodeHash h item walk.newHash⟩
  else some ⟨walk.fn / 2, walk.sn / 2, walk.oldHash, nodeHash h walk.newHash item⟩

def verifyConsistency (h : HashFunction) (oldSize newSize : Int) (oldRoot newRoot : Bytes)
    (proof : List Bytes) :
    Bool :=
  if oldSize < 1 ∨ oldSize > newSize then false
  else if oldSize = newSize then proof.length == 0 && oldRoot == newRoot
  else if proof.any fun item => item.length != 32 then false
  else
    let (fn, sn) := stripOnes (oldSize.toNat - 1) (newSize.toNat - 1)
    let start : Option (Bytes × List Bytes) :=
      if fn = 0 then some (oldRoot, proof)
      else
        match proof with
        | [] => none
        | first :: rest => some (first, rest)
    match start with
    | none => false
    | some (hash, items) =>
        match items.foldlM (advance h) ⟨fn, sn, hash, hash⟩ with
        | none => false
        | some final => final.sn == 0 && final.oldHash == oldRoot && final.newHash == newRoot

-- The tree a list of leaf hashes stands for, cut where the source cuts it.
def treeOf (leaves : List Bytes) : HashTree.Tree Bytes :=
  if leaves.length < 2 then .leaf (leaves.headD [])
  else
    let k := split leaves.length
    .node (treeOf (leaves.take k)) (treeOf (leaves.drop k))
termination_by leaves.length
decreasing_by
  · have bound := split_lt leaves.length (by omega)
    simpa using bound
  · have bound := split_pos leaves.length
    rw [List.length_drop]
    omega

end CalibrationLedger
