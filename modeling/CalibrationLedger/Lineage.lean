import CalibrationLedger.Extensions
import CalibrationLedger.Soundness

set_option autoImplicit false

-- Receipts kept by a client over time, each shown to be an extension of the last.
-- Nothing is asked of who signed them: the server may hold every key.
namespace CalibrationLedger

open JsonText Digest HashTree Interleaving

section

variable (h : HashFunction)

theorem consistency_root (leaves : List Bytes) (widths : ∀ leaf ∈ leaves, leaf.length = 32)
    (oldSize : Int) (oldRoot : Bytes) (proof : List Bytes)
    (free : CollisionFree h
      (rootInputs h leaves ++ consistencyInputs h oldSize.toNat leaves.length oldRoot proof))
    (accepted : verifyConsistency h oldSize leaves.length oldRoot (merkleRoot h leaves) proof = true) :
    1 ≤ oldSize ∧ oldSize ≤ leaves.length ∧ oldRoot = merkleRoot h (leaves.take oldSize.toNat) := by
  have range : 1 ≤ oldSize ∧ oldSize ≤ leaves.length := by
    by_contra outside
    unfold verifyConsistency at accepted
    rw [if_pos (by omega)] at accepted
    cases accepted
  refine ⟨range.1, range.2, ?_⟩
  obtain ⟨m, rfl⟩ := Int.eq_ofNat_of_zero_le (by omega : 0 ≤ oldSize)
  rw [Int.toNat_natCast] at free ⊢
  by_cases whole : m = leaves.length
  · unfold verifyConsistency at accepted
    rw [if_neg (by omega), if_pos (by omega)] at accepted
    rw [whole, List.take_length]
    exact eq_of_beq (Bool.and_eq_true_iff.mp accepted).2
  · have positive : 0 < m := by omega
    have part : m < leaves.length := by omega
    obtain ⟨wide, walk, items, final, starts, finished, ended, old, new⟩ :=
      verify_consistency_walks h m leaves.length oldRoot _ proof positive part accepted
    have honest := start_honest h m leaves positive part
    obtain ⟨reached, inside⟩ := siblings_reach h m leaves positive part
    obtain ⟨fns, sns⟩ := start_sizes m leaves.length _ _ _ _ _ _ _ _ honest starts
    rw [consistencyInputs, if_pos part, starts] at free
    have apart := node_no_collision h _ _ (joins_widths h leaves
        (List.ne_nil_of_length_pos (by omega)) widths)
      (walk_joins_half h walk items fun item member =>
        wide item (start_items m _ _ _ _ _ starts item member)) free
    obtain ⟨same, hashes⟩ :=
      lockstep h (siblings h m leaves) items (startOf h m leaves) walk _ final fns sns reached
      finished rfl ended new.symm
        (no_collision_subset (nodeHash h) _ _ _ _ inside (fun _ member => member) apart)
    subst same
    obtain ⟨rfl, _⟩ := start_pins m leaves.length _ _ _ _ _ _ _ honest starts hashes
    rw [reached] at finished
    cases finished
    exact old.symm

end

section

variable (rt : Runtime)

-- The size and the root a checkpoint object shows.
def treeHead (data : Json) : Option (Int × Bytes) :=
  match pyInt rt (getItem "leaf_count" (dictOf data)),
      decodeHash (getItem "root_hash" (dictOf data)) "root_hash" with
  | .ok size, .ok root => some (size, root)
  | _, _ => none

def receiptHashes (receipt : Dict) : Py (List Bytes) := do
  let items ← iterate (getItem "hashes" (dictOf (getItem "consistency_proof" receipt)))
  readHashes 0 items

-- The byte strings the verifier hashes on its walk between the two roots of a receipt.
def receiptWalkInputs (receipt : Dict) : List Bytes :=
  match treeHead rt (receiptOldCheckpoint receipt), treeHead rt (receiptCheckpoint receipt),
      receiptHashes receipt with
  | some (oldSize, oldRoot), some (newSize, _), .ok hashes =>
      (consistencyPairs rt.toHashFunction oldSize.toNat newSize.toNat oldRoot hashes).map pairInput
  | _, _, _ => []

def Witnessed (receipt : Dict) : Prop :=
  ∃ keyring result, verifyReceipt rt receipt keyring = .ok result ∧ result.witnessed = true

-- The later receipt stands at the head of the earlier one, or at one that is shown to
-- extend it.
def Continues (earlier later : Dict) : Prop :=
  treeHead rt (receiptCheckpoint later) = treeHead rt (receiptCheckpoint earlier) ∨
    treeHead rt (receiptOldCheckpoint later) = treeHead rt (receiptCheckpoint earlier)

theorem decode_hash_field (value : Json) (field other : String) (data : Bytes)
    (decoded : decodeHash value field = .ok data) :
    decodeHash value other = .ok data := by
  obtain ⟨width, content, rfl, hexadecimal⟩ := decode_hash_ok value field data decoded
  simp [decodeHash, hexadecimal, width]

theorem tree_head_some (data : Json) (size : Int) (root : Bytes) (field : String)
    (counted : pyInt rt (getItem "leaf_count" (dictOf data)) = .ok size)
    (rooted : decodeHash (getItem "root_hash" (dictOf data)) field = .ok root) :
    treeHead rt data = some (size, root) := by
  rw [treeHead, counted, decode_hash_field _ field "root_hash" root rooted]

theorem tree_head_width (data : Json) (size : Int) (root : Bytes)
    (head : treeHead rt data = some (size, root)) :
    root.length = 32 := by
  unfold treeHead at head
  split at head
  · rename_i decoded
    cases head
    exact (decode_hash_ok _ _ _ decoded).1
  · cases head

theorem shown_head (checkpoint : Checkpoint) (root : Bytes) (rooted : checkpoint.rootHash = hex root)
    (width : root.length = 32) :
    treeHead rt (.obj (dict (checkpoint.shown rt))) = some ((checkpoint.leafCount : Int), root) := by
  refine tree_head_some rt _ _ _ "root_hash" ?_ ?_
  · rw [dictOf, get_item_dict]
    rfl
  · rw [dictOf, get_item_dict]
    exact (congrArg (fun found => decodeHash (string found) "root_hash") rooted).trans
      (decode_hash_hex root _ width)

theorem witnessed_inclusion (receipt : Dict) (witnessed : Witnessed rt receipt) :
    ∃ data steps size index root, eventCommitmentBytes rt (receiptEvent receipt) = .ok data ∧
      receiptSteps receipt = .ok steps ∧ treeHead rt (receiptCheckpoint receipt) = some (size, root) ∧
      pyInt rt (receiptLeafIndex receipt) = .ok index ∧
      verifyInclusion rt.toHashFunction (leafHash rt.toHashFunction data) index size steps root = true := by
  obtain ⟨keyring, result, verified, shown⟩ := witnessed
  obtain ⟨eventStage, readEvent, verified⟩ := verify_receipt_ok rt receipt keyring result verified shown
  obtain ⟨data, written, leaf⟩ := read_event_ok rt receipt eventStage readEvent
  obtain ⟨stage, readInclusion, included, _⟩ := verify_sealed_ok rt receipt keyring _ result verified
  obtain ⟨same, _, root, steps, size, index, path, counted, indexed, checked⟩ :=
    read_inclusion_ok rt receipt keyring _ stage readInclusion
  rw [same] at root counted
  refine ⟨data, steps, size, index, stage.expectedRoot, written, path,
    tree_head_some rt _ _ _ _ counted root, indexed, ?_⟩
  rw [← leaf, ← checked]
  exact included

theorem read_consistency_walk (checkpoint consistency previousId : Json) (keyring : Keyring)
    (expectedRoot : Bytes) (consistent : Bool)
    (read : readConsistency rt checkpoint consistency previousId keyring expectedRoot = .ok consistent) :
    ∃ oldSize newSize oldRoot items hashes,
      treeHead rt (getItem "old_checkpoint" (dictOf consistency)) = some (oldSize, oldRoot) ∧
      pyInt rt (getItem "leaf_count" (dictOf checkpoint)) = .ok newSize ∧
      iterate (getItem "hashes" (dictOf consistency)) = .ok items ∧ readHashes 0 items = .ok hashes ∧
      consistent = verifyConsistency rt.toHashFunction oldSize newSize oldRoot expectedRoot hashes := by
  obtain ⟨old, foundOld, read⟩ := (bind_ok _ _ _).mp read
  obtain ⟨_, _, read⟩ := (bind_ok _ _ _).mp read
  obtain ⟨_, _, read⟩ := (bind_ok _ _ _).mp read
  obtain ⟨_, _, read⟩ := (bind_ok _ _ _).mp read
  obtain ⟨_, _, read⟩ := (bind_ok _ _ _).mp read
  obtain ⟨_, _, read⟩ := (bind_ok _ _ _).mp read
  obtain ⟨_, _, read⟩ := (bind_ok _ _ _).mp read
  obtain ⟨_, _, read⟩ := (bind_ok _ _ _).mp read
  obtain ⟨_, _, read⟩ := (bind_ok _ _ _).mp read
  obtain ⟨listed, foundHashes, read⟩ := (bind_ok _ _ _).mp read
  obtain ⟨items, iterated, read⟩ := (bind_ok _ _ _).mp read
  obtain ⟨hashes, readItems, read⟩ := (bind_ok _ _ _).mp read
  obtain ⟨_, _, read⟩ := (bind_ok _ _ _).mp read
  obtain ⟨oldSize, _, read⟩ := (bind_ok _ _ _).mp read
  obtain ⟨_, _, read⟩ := (bind_ok _ _ _).mp read
  obtain ⟨newSize, _, read⟩ := (bind_ok _ _ _).mp read
  obtain ⟨oldValue, foundOldCount, read⟩ := (bind_ok _ _ _).mp read
  obtain ⟨oldCount, oldCounted, read⟩ := (bind_ok _ _ _).mp read
  obtain ⟨_, oldSized, read⟩ := (bind_ok _ _ _).mp read
  obtain ⟨newValue, foundNewCount, read⟩ := (bind_ok _ _ _).mp read
  obtain ⟨newCount, newCounted, read⟩ := (bind_ok _ _ _).mp read
  obtain ⟨_, newSized, read⟩ := (bind_ok _ _ _).mp read
  obtain ⟨rootValue, foundRoot, read⟩ := (bind_ok _ _ _).mp read
  obtain ⟨oldRoot, decoded, whole⟩ := (bind_ok _ _ _).mp read
  cases whole
  have oldSizes : oldSize = oldCount := by simpa using ensure_ok _ _ _ oldSized
  have newSizes : newSize = newCount := by simpa using ensure_ok _ _ _ newSized
  refine ⟨oldCount, newCount, oldRoot, items, hashes, ?_, ?_, ?_, readItems, by rw [oldSizes, newSizes]⟩
  · rw [subscript_item _ _ _ foundOld]
    refine tree_head_some rt old oldCount oldRoot "old_checkpoint.root_hash" ?_ ?_
    · rw [subscript_item _ _ _ foundOldCount]
      exact oldCounted
    · rw [subscript_item _ _ _ foundRoot]
      exact decoded
  · rw [subscript_item _ _ _ foundNewCount]
    exact newCounted
  · rw [subscript_item _ _ _ foundHashes]
    exact iterated

theorem witnessed_walk (receipt : Dict) (witnessed : Witnessed rt receipt) (oldSize size : Int)
    (oldRoot root : Bytes) (old : treeHead rt (receiptOldCheckpoint receipt) = some (oldSize, oldRoot))
    (head : treeHead rt (receiptCheckpoint receipt) = some (size, root)) :
    ∃ hashes, receiptHashes receipt = .ok hashes ∧
      verifyConsistency rt.toHashFunction oldSize size oldRoot root hashes = true := by
  obtain ⟨keyring, result, verified, shown⟩ := witnessed
  obtain ⟨eventStage, readEvent, verified⟩ := verify_receipt_ok rt receipt keyring result verified shown
  obtain ⟨stage, readInclusion, _, preceded⟩ := verify_sealed_ok rt receipt keyring _ result verified
  obtain ⟨same, _, decoded, _, treeSize, _, _, counted, _⟩ :=
    read_inclusion_ok rt receipt keyring _ stage readInclusion
  rw [same] at preceded counted decoded
  have shownHead := tree_head_some rt _ _ _ _ counted decoded
  rw [head] at shownHead
  cases shownHead
  unfold verifyPredecessor at preceded
  dsimp only at preceded
  split at preceded
  · obtain ⟨_, _, preceded⟩ := (bind_ok _ _ _).mp preceded
    have absent : getItem "consistency_proof" receipt = .null := by simpa using ensure_ok _ _ _ preceded
    rw [receiptOldCheckpoint, absent] at old
    cases old
  · split at preceded
    · obtain ⟨consistent, read, passed⟩ := (bind_ok _ _ _).mp preceded
      obtain ⟨_, _, _, items, hashes, oldHead, newCounted, iterated, readItems, is⟩ :=
        read_consistency_walk rt _ _ _ keyring _ consistent (translating_ok _ _ _ read)
      rw [receiptOldCheckpoint, oldHead] at old
      cases old
      rw [counted] at newCounted
      cases newCounted
      refine ⟨hashes, (bind_ok _ _ _).mpr ⟨items, iterated, readItems⟩, ?_⟩
      rw [← is]
      exact ensure_ok _ _ _ passed
    · cases preceded

-- What a client hashes on the way through its receipts, and with it the trees of every
-- size up to some leaves.
def keptInputs (receipts : List Dict) : List Bytes :=
  receipts.flatMap fun receipt => receiptInputs rt receipt ++ receiptWalkInputs rt receipt

def lineageInputs (receipts : List Dict) (leaves : List Bytes) : List Bytes :=
  leaves.inits.flatMap (rootInputs rt.toHashFunction) ++ keptInputs rt receipts

section

variable (receipts : List Dict)

-- A pair of digests the client joined.
def Joined (pair : Bytes × Bytes) : Prop :=
  pairInput pair ∈ keptInputs rt receipts ∧ pair.1.length = 32 ∧ pair.2.length = 32

theorem joined_apart (free : CollisionFree rt.toHashFunction (keptInputs rt receipts)) :
    JoinsApart (nodeHash rt.toHashFunction) (Joined rt receipts) := by
  rintro a b c d ⟨first, left, right⟩ ⟨second, half, _⟩ same
  exact Prod.mk.inj (pair_input_injective (a, b) (c, d) left right (.inl half) (free _ first _ second same))

theorem witnessed_leaf (receipt : Dict) (inside : receipt ∈ receipts) (witnessed : Witnessed rt receipt) :
    ∃ (index size : Nat) (root data : Bytes), pyInt rt (receiptLeafIndex receipt) = .ok (index : Int) ∧
      treeHead rt (receiptCheckpoint receipt) = some ((size : Int), root) ∧
      eventCommitmentBytes rt (receiptEvent receipt) = .ok data ∧ (0 :: data) ∈ keptInputs rt receipts ∧
      LeafAt (nodeHash rt.toHashFunction) split (Joined rt receipts) index size
        (leafHash rt.toHashFunction data) root := by
  obtain ⟨data, steps, size, index, root, written, path, shown, indexed, included⟩ :=
    witnessed_inclusion rt receipt witnessed
  have inputs : receiptInputs rt receipt =
      (0 :: data) :: climbInputs rt.toHashFunction (leafHash rt.toHashFunction data) steps := by
    rw [receiptInputs, written, path]
  have hashed : ∀ input ∈ receiptInputs rt receipt, input ∈ keptInputs rt receipts := fun input member =>
    List.mem_flatMap.mpr ⟨receipt, inside, List.mem_append_left _ member⟩
  have joined : ∀ pair ∈
      climbJoins (nodeHash rt.toHashFunction) (leafHash rt.toHashFunction data) steps,
      Joined rt receipts pair := by
    intro pair member
    refine ⟨hashed _ ?_, climb_joins_width rt.toHashFunction _ steps (rt.digest_length _)
      (inclusion_widths rt.toHashFunction _ _ _ _ _ included) pair member⟩
    rw [inputs]
    exact List.mem_cons_of_mem _ (List.mem_map_of_mem member)
  obtain ⟨place, count, rfl, rfl, stands⟩ :=
    inclusion_placed rt.toHashFunction _ _ index size steps root included joined
  exact ⟨place, count, root, data, indexed, shown, written,
    hashed _ (by rw [inputs]; exact List.mem_cons_self), stands⟩

theorem continues_grows (earlier later : Dict) (inside : later ∈ receipts) (witnessed : Witnessed rt later)
    (continues : Continues rt earlier later) (small large : Nat) (root grown : Bytes)
    (before : treeHead rt (receiptCheckpoint earlier) = some ((small : Int), root))
    (after : treeHead rt (receiptCheckpoint later) = some ((large : Int), grown)) :
    RootGrows (nodeHash rt.toHashFunction) split (Joined rt receipts) small large root grown := by
  rcases continues with same | older
  · rw [before, after] at same
    cases same
    exact .whole small root
  · rw [before] at older
    obtain ⟨hashes, read, accepted⟩ := witnessed_walk rt later witnessed small large root grown older after
    have width : root.length = 32 := tree_head_width rt _ _ _ before
    have joined : ∀ pair ∈ consistencyPairs rt.toHashFunction (small : Int).toNat
      (large : Int).toNat root hashes,
        Joined rt receipts pair := by
      intro pair member
      refine ⟨List.mem_flatMap.mpr ⟨later, inside, List.mem_append_right _ ?_⟩,
        consistency_pairs_width rt.toHashFunction _ _ root grown hashes width accepted pair member⟩
      rw [receiptWalkInputs, older, after, read]
      exact List.mem_map_of_mem member
    obtain ⟨m, n, smaller, larger, grows⟩ :=
      consistency_extends rt.toHashFunction _ small large root grown hashes accepted joined
    cases smaller
    cases larger
    exact grows

-- The size of the tree a receipt shows, and that its leaves stand under a last root.
def OfSize (receipt : Dict) (size : Nat) : Prop :=
  ∃ root, treeHead rt (receiptCheckpoint receipt) = some ((size : Int), root)

def Lifted (top : Nat) (peak : Bytes) (receipt : Dict) (size : Nat) : Prop :=
  ∃ root, treeHead rt (receiptCheckpoint receipt) = some ((size : Int), root) ∧ ∀ index digest,
    LeafAt (nodeHash rt.toHashFunction) split (Joined rt receipts) index size digest root →
      LeafAt (nodeHash rt.toHashFunction) split (Joined rt receipts) index top digest peak

theorem chain_grows (free : CollisionFree rt.toHashFunction (keptInputs rt receipts)) (kept : List Dict)
    (inside : ∀ receipt ∈ kept, receipt ∈ receipts) (witnessed : ∀ receipt ∈ kept, Witnessed rt receipt)
    (followed : kept.IsChain (Continues rt)) :
    ∃ (top : Nat) (peak : Bytes) (sizes : List Nat), sizes.Pairwise (· ≤ ·) ∧
      List.Forall₂ (Lifted rt receipts top peak) kept sizes := by
  induction kept with
  | nil => exact ⟨0, [], [], .nil, .nil⟩
  | cons first rest ih =>
      obtain ⟨_, size, root, _, _, shown, _⟩ :=
        witnessed_leaf rt receipts first (inside first List.mem_cons_self)
        (witnessed first List.mem_cons_self)
      cases rest with
      | nil =>
          exact ⟨size, root, [size], List.pairwise_singleton _ _, .cons ⟨root, shown, fun _ _ => id⟩ .nil⟩
      | cons second others =>
          obtain ⟨continues, onward⟩ := List.isChain_cons_cons.mp followed
          obtain ⟨top, peak, sizes, sorted, heads⟩ := ih
            (fun receipt member => inside receipt (List.mem_cons_of_mem _ member))
            (fun receipt member => witnessed receipt (List.mem_cons_of_mem _ member)) onward
          obtain ⟨large, later, ⟨grown, after, lifts⟩, tail, rfl⟩ := List.forall₂_cons_left_iff.mp heads
          have grows := continues_grows rt receipts first second (inside second (by simp))
            (witnessed second (by simp)) continues
            size large root grown shown after
          have low := root_grows_le split_cut size large root grown grows
          refine ⟨top, peak, size :: large :: later, List.pairwise_cons.mpr ⟨fun other member => ?_, sorted⟩,
            .cons ⟨root, shown, fun index digest stands => ?_⟩ heads⟩
          · rcases List.mem_cons.mp member with rfl | further
            · exact low
            · exact low.trans ((List.pairwise_cons.mp sorted).1 other further)
          · exact lifts index digest
              (leaf_at_grows split_cut (joined_apart rt receipts free) size large root grown grows index
              digest stands)

theorem receipt_placed (top : Nat) (peak : Bytes) (sizes : List Nat)
    (heads : List.Forall₂ (Lifted rt receipts top peak) receipts sizes) (receipt : Dict)
    (inside : receipt ∈ receipts) (witnessed : Witnessed rt receipt) :
    ∃ (index : Nat) (data : Bytes), pyInt rt (receiptLeafIndex receipt) = .ok (index : Int) ∧
      eventCommitmentBytes rt (receiptEvent receipt) = .ok data ∧ (0 :: data) ∈ keptInputs rt receipts ∧
      LeafAt (nodeHash rt.toHashFunction) split (Joined rt receipts) index top
        (leafHash rt.toHashFunction data) peak := by
  obtain ⟨index, size, root, data, indexed, shown, written, hashed, stands⟩ :=
    witnessed_leaf rt receipts receipt inside witnessed
  obtain ⟨n, rfl⟩ := List.mem_iff_get.mp inside
  obtain ⟨equal, each⟩ := List.forall₂_iff_get.mp heads
  obtain ⟨other, again, lifts⟩ := each n.1 n.2 (equal ▸ n.2)
  rw [show receipts.get ⟨n.1, n.2⟩ = receipts.get n from rfl, shown] at again
  obtain ⟨sizes, roots⟩ := Prod.mk.inj (Option.some.inj again)
  obtain rfl := Int.ofNat.inj sizes
  subst roots
  exact ⟨index, data, indexed, written, hashed, lifts index _ stands⟩

end

-- The head is that of the first leaves.
def HeadOf (leaves : List Bytes) (receipt : Dict) (size : Nat) : Prop :=
  size ≤ leaves.length ∧
    treeHead rt (receiptCheckpoint receipt) =
      some ((size : Int), merkleRoot rt.toHashFunction (leaves.take size))

section

variable (receipts : List Dict) (leaves : List Bytes) (widths : ∀ leaf ∈ leaves, leaf.length = 32)
  (free : CollisionFree rt.toHashFunction (lineageInputs rt receipts leaves))

include widths free

theorem continues_back (earlier later : Dict) (inside : later ∈ receipts)
    (witnessed : Witnessed rt later) (continues : Continues rt earlier later)
    (shown : (treeHead rt (receiptCheckpoint earlier)).isSome = true) (size : Nat)
    (head : HeadOf rt leaves later size) : ∃ older, HeadOf rt leaves earlier older := by
  obtain ⟨within, atHead⟩ := head
  rcases continues with same | older
  · exact ⟨size, within, same ▸ atHead⟩
  · obtain ⟨⟨oldSize, oldRoot⟩, oldHead⟩ := Option.isSome_iff_exists.mp shown
    rw [oldHead] at older
    obtain ⟨hashes, read, accepted⟩ := witnessed_walk rt later witnessed oldSize size oldRoot _ older atHead
    have length : (leaves.take size).length = size := by rw [List.length_take, Nat.min_eq_left within]
    have apart : CollisionFree rt.toHashFunction (rootInputs rt.toHashFunction (leaves.take size) ++
        consistencyInputs rt.toHashFunction oldSize.toNat (leaves.take size).length oldRoot hashes) := by
      refine collision_free_subset _ _ _ (fun input member => ?_) free
      rcases List.mem_append.mp member with tree | walked
      · exact List.mem_append_left _ (List.mem_flatMap.mpr
            ⟨_, (List.mem_inits _ _).mpr (List.take_prefix size leaves), tree⟩)
      · refine List.mem_append_right _ (List.mem_flatMap.mpr ⟨later, inside, List.mem_append_right _ ?_⟩)
        rw [length] at walked
        rw [receiptWalkInputs, older, atHead, read]
        exact consistency_inputs_pairs rt.toHashFunction _ _ _ _ _ walked
    obtain ⟨positive, low, root⟩ := consistency_root rt.toHashFunction (leaves.take size)
      (fun leaf member => widths leaf (List.mem_of_mem_take member)) oldSize oldRoot hashes apart
        (by rw [length]; exact accepted)
    obtain ⟨m, rfl⟩ := Int.eq_ofNat_of_zero_le (by omega : 0 ≤ oldSize)
    rw [length] at low
    rw [Int.toNat_natCast, List.take_take, Nat.min_eq_left (by omega)] at root
    exact ⟨m, by omega, by rw [oldHead, root]⟩

theorem chain_heads (kept : List Dict) (inside : ∀ receipt ∈ kept, receipt ∈ receipts)
    (witnessed : ∀ receipt ∈ kept, Witnessed rt receipt) (followed : kept.IsChain (Continues rt))
    (newest : ∀ receipt ∈ kept.getLast?, HeadOf rt leaves receipt leaves.length) :
    ∃ sizes, List.Forall₂ (HeadOf rt leaves) kept sizes := by
  induction kept with
  | nil => exact ⟨[], .nil⟩
  | cons first rest ih =>
      cases rest with
      | nil => exact ⟨[leaves.length], .cons (newest first rfl) .nil⟩
      | cons second others =>
          obtain ⟨continues, onward⟩ := List.isChain_cons_cons.mp followed
          obtain ⟨sizes, heads⟩ := ih (fun receipt member => inside receipt (List.mem_cons_of_mem _ member))
            (fun receipt member => witnessed receipt (List.mem_cons_of_mem _ member)) onward
            (fun receipt last => newest receipt (by simpa using last))
          obtain ⟨size, later, head, tail, rfl⟩ := List.forall₂_cons_left_iff.mp heads
          obtain ⟨_, _, _, _, _, _, _, shown, _⟩ :=
            witnessed_inclusion rt first (witnessed first List.mem_cons_self)
          obtain ⟨older, older_head⟩ := continues_back rt receipts leaves widths free first second
            (inside second (by simp)) (witnessed second (by simp)) continues (by rw [shown]; rfl) size head
          exact ⟨older :: size :: later, .cons older_head heads⟩

theorem head_event (receipt : Dict) (inside : receipt ∈ receipts) (witnessed : Witnessed rt receipt)
    (size : Nat) (head : HeadOf rt leaves receipt size) :
    ∃ (index : Nat) (data : Bytes), pyInt rt (receiptLeafIndex receipt) = .ok (index : Int) ∧ index < size ∧
      eventCommitmentBytes rt (receiptEvent receipt) = .ok data ∧
      leaves[index]? = some (leafHash rt.toHashFunction data) := by
  obtain ⟨data, steps, shownSize, index, root, written, path, shown, indexed, included⟩ :=
    witnessed_inclusion rt receipt witnessed
  obtain ⟨within, atHead⟩ := head
  rw [atHead] at shown
  cases shown
  have length : (leaves.take size).length = size := by rw [List.length_take, Nat.min_eq_left within]
  have inputs : receiptInputs rt receipt =
      (0 :: data) :: climbInputs rt.toHashFunction (leafHash rt.toHashFunction data) steps := by
    rw [receiptInputs, written, path]
  have hashed : ∀ input ∈ receiptInputs rt receipt, input ∈ lineageInputs rt receipts leaves :=
    fun input member =>
    List.mem_append_right _ (List.mem_flatMap.mpr ⟨receipt, inside, List.mem_append_left _ member⟩)
  have apart : CollisionFree rt.toHashFunction (rootInputs rt.toHashFunction (leaves.take size) ++
      climbInputs rt.toHashFunction (leafHash rt.toHashFunction data) steps) := by
    refine collision_free_subset _ _ _ (fun input member => ?_) free
    rcases List.mem_append.mp member with tree | climbed
    · exact List.mem_append_left _ (List.mem_flatMap.mpr
          ⟨_, (List.mem_inits _ _).mpr (List.take_prefix size leaves), tree⟩)
    · exact hashed input (by rw [inputs]; exact List.mem_cons_of_mem _ climbed)
  obtain ⟨positive, found, _⟩ := inclusion_pins rt.toHashFunction (leaves.take size)
    (fun leaf member => widths leaf (List.mem_of_mem_take member)) _ index steps apart
      (by rw [length]; exact included)
  obtain ⟨m, rfl⟩ := Int.eq_ofNat_of_zero_le positive
  rw [Int.toNat_natCast, List.getElem?_take] at found
  split at found
  · rename_i low
    exact ⟨m, data, indexed, low, written, found⟩
  · cases found

end

-- Receipts a client kept, each one continuing the last: their sizes never go down, and no
-- two of them show different events for one place, whatever the server holds or signed; and
-- whoever holds leaves behind the newest head finds the event of every receipt among them.
theorem kept_receipts_share_one_history (receipts : List Dict)
    (free : CollisionFree rt.toHashFunction (keptInputs rt receipts))
    (witnessed : ∀ receipt ∈ receipts, Witnessed rt receipt)
    (followed : receipts.IsChain (Continues rt)) :
    (∃ sizes : List Nat, sizes.Pairwise (· ≤ ·) ∧ List.Forall₂ (OfSize rt) receipts sizes) ∧
    (∀ left ∈ receipts, ∀ right ∈ receipts,
      pyInt rt (receiptLeafIndex left) = pyInt rt (receiptLeafIndex right) →
      eventCommitmentBytes rt (receiptEvent left) = eventCommitmentBytes rt (receiptEvent right)) ∧
    ∀ leaves : List Bytes, (∀ leaf ∈ leaves, leaf.length = 32) →
      CollisionFree rt.toHashFunction (lineageInputs rt receipts leaves) →
      (∀ receipt ∈ receipts.getLast?, HeadOf rt leaves receipt leaves.length) →
      ∀ receipt ∈ receipts, ∃ (size index : Nat) (data : Bytes), HeadOf rt leaves receipt size ∧
        pyInt rt (receiptLeafIndex receipt) = .ok (index : Int) ∧ index < size ∧
        eventCommitmentBytes rt (receiptEvent receipt) = .ok data ∧
        leaves[index]? = some (leafHash rt.toHashFunction data) := by
  obtain ⟨top, peak, sizes, sorted, heads⟩ :=
    chain_grows rt receipts free receipts (fun _ member => member) witnessed followed
  refine ⟨⟨sizes, sorted, heads.imp fun receipt size ⟨root, shown, _⟩ => ⟨root, shown⟩⟩, ?_, ?_⟩
  · intro left insideLeft right insideRight same
    obtain ⟨m, data, indexed, written, hashed, stands⟩ :=
      receipt_placed rt receipts top peak sizes heads left insideLeft (witnessed left insideLeft)
    obtain ⟨n, other, indexedToo, writtenToo, hashedToo, standsToo⟩ :=
      receipt_placed rt receipts top peak sizes heads right insideRight (witnessed right insideRight)
    rw [indexed, indexedToo] at same
    obtain rfl := Int.ofNat.inj (Except.ok.inj same)
    have leaf := leaf_at_unique (joined_apart rt receipts free) m top _ _ peak stands standsToo
    have equal := free _ hashed _ hashedToo leaf
    rw [written, writtenToo, (List.cons.inj equal).2]
  · intro leaves widths apart newest receipt inside
    obtain ⟨sizes, heads⟩ :=
      chain_heads rt receipts leaves widths apart receipts (fun _ member => member) witnessed followed newest
    obtain ⟨n, rfl⟩ := List.mem_iff_get.mp inside
    obtain ⟨equal, each⟩ := List.forall₂_iff_get.mp heads
    have head := each n.1 n.2 (equal ▸ n.2)
    obtain ⟨index, data, indexed, low, written, found⟩ :=
      head_event rt receipts leaves widths apart _ inside (witnessed _ inside) _ head
    exact ⟨_, index, data, head, indexed, low, written, found⟩

end

theorem one_to_three (h : HashFunction) (a b c : Bytes) : consistencyProof h [a, b, c] 1 = some [b, c] ∧
    consistencyPairs h 1 3 a [b, c] = [(a, b), (nodeHash h a b, c)] := by
  have two : split [a, b].length = 1 := by
    rw [show [a, b].length = 2 from rfl]
    decide
  have three : split [a, b, c].length = 2 := by
    rw [show [a, b, c].length = 3 from rfl]
    decide
  constructor
  · rw [consistencyProof, if_neg (by simp), if_neg (by simp), subproof, if_neg (by simp), if_neg (by simp)]
    dsimp only
    rw [three, if_pos (by simp), show [a, b, c].take 2 = [a, b] from rfl, subproof, if_neg (by simp),
      if_neg (by simp)]
    dsimp only
    rw [two, if_pos (by simp), show [a, b].take 1 = [a] from rfl, subproof, if_pos (by simp)]
    simp [merkle_root_short]
  · have start : stripOnes (1 - 1) (3 - 1) = (0, 2) := strip_ones_even 0 2 (by decide)
    rw [consistencyPairs, if_pos (by decide), startWith, start]
    simp [walkJoins, oldJoins, advance, pairOf]

-- Three receipts kept over the longer run: one from each of its two checkpoints, and
-- another from the second.
def chronicleLeaves : List Bytes :=
  [rowLeaf reference sampleEvent, rowLeaf reference revisedEvent,
      rowLeaf reference laterEvent]

def keptReceipts (table : EventTable) : List Dict := [
  receiptAt reference table sampleCheckpoint .null sampleEvent 0,
  chronicleReceipt table chronicleLeaves.tail revisedEvent 1,
  chronicleReceipt table chronicleLeaves.tail laterEvent 2]

theorem chronicle_hashes (table : EventTable) (hashes : List Bytes)
    (widths : ∀ item ∈ hashes, item.length = 32) (event : Event) (index : Nat) :
    receiptHashes (chronicleReceipt table hashes event index) = .ok hashes := by
  have items : iterate
    (getItem "hashes" (dictOf (getItem "consistency_proof" (chronicleReceipt table hashes event index)))) =
      .ok (hashes.map fun item => string (hex item)) := by
    rw [chronicleReceipt, built_receipt_consistency, bundle, dictOf, get_item_dict]
    simp [iterate]
  exact (bind_ok _ _ _).mpr ⟨_, items, read_hashes_shown 0 hashes widths⟩

theorem chronicle_widths : ∀ leaf ∈ chronicleLeaves, leaf.length = 32 :=
  row_leaves_width reference [sampleEvent, revisedEvent, laterEvent]

theorem chronicle_tree_inputs :
    ∀ front ∈ chronicleLeaves.inits, ∀ input ∈ rootInputs reference.toHashFunction front,
    input ∈ chronicleInputs := by
  intro front begins input member
  have whole := three_leaf_inputs reference.toHashFunction (rowLeaf reference sampleEvent)
    (rowLeaf reference revisedEvent)
    (rowLeaf reference laterEvent)
  simp only [chronicleLeaves, List.inits, List.map_cons, List.map_nil, List.mem_cons, List.not_mem_nil,
    or_false] at begins
  rcases begins with rfl | rfl | rfl | rfl
  · rw [rootInputs, tree_of_short _ (by simp)] at member
    cases member
  · rw [rootInputs, tree_of_single] at member
    cases member
  · rw [two_leaf_inputs] at member
    rw [List.mem_singleton.mp member]
    simp [chronicleInputs]
  · rw [whole] at member
    rw [chronicleInputs]
    exact List.mem_cons_of_mem _ (List.mem_cons_of_mem _ (List.mem_cons_of_mem _ member))

section

variable (now : Config (postgres (Fin 5)) (Py Outcome))
  (reached : Reaches (postgres (Fin 5)) (start reference chronicle) now)
  (rows : now.store.events.rows = [sampleEvent, revisedEvent, laterEvent])
  (checkpoints : now.store.checkpoints = [sampleCheckpoint, laterCheckpoint])

include reached rows checkpoints

theorem chronicle_heads :
    treeHead reference (.obj (dict (sampleCheckpoint.shown reference))) =
      some (1, rowLeaf reference sampleEvent) ∧
    treeHead reference (.obj (dict (laterCheckpoint.shown reference))) =
      some (3, merkleRoot reference.toHashFunction chronicleLeaves) := by
  obtain ⟨early, late⟩ := chronicle_covered now.store.events rows
  have covers := sound_covers reference _ now.store (history_sound reference chronicle now reached)
  have first := (covers sampleCheckpoint (by rw [checkpoints]; simp)).root
  have second := (covers laterCheckpoint (by rw [checkpoints]; simp)).root
  rw [early] at first
  rw [late] at second
  have single : merkleRoot reference.toHashFunction [rowLeaf reference sampleEvent] =
      rowLeaf reference sampleEvent :=
    merkle_root_short _ _ (by simp)
  constructor
  · exact shown_head reference sampleCheckpoint _ (first.symm.trans (congrArg hex single))
      (reference.digest_length _)
  · exact shown_head reference laterCheckpoint _ second.symm
      (merkle_root_length reference.toHashFunction _ (row_leaves_width reference
        [sampleEvent, revisedEvent, laterEvent]))

theorem chronicle_kept : (∀ receipt ∈ keptReceipts now.store.events, Witnessed reference receipt) ∧
    (keptReceipts now.store.events).IsChain (Continues reference) := by
  have sound := history_sound reference chronicle now reached
  have legible := chronicle_legible now.store.toLedger rows checkpoints
  obtain ⟨early, late⟩ := chronicle_covered now.store.events rows
  obtain ⟨hashes, proof, verifies⟩ := chronicle_receipts_verify now reached rows checkpoints
  have first := receipt_verifies reference _ now.store sound legible sampleKeyring sampleCheckpoint
    (by rw [checkpoints]; simp)
    (fun _ _ => chronicle_keys _) .null ⟨rfl, rfl⟩ sampleEvent 0 (by rw [early]; rfl)
  have built := (one_to_three reference.toHashFunction (rowLeaf reference sampleEvent)
    (rowLeaf reference revisedEvent) (rowLeaf reference laterEvent)).1
  rw [leavesOf, late] at proof
  obtain rfl := Option.some.inj (built.symm.trans proof)
  have second := verifies revisedEvent 1 (by rw [late]; rfl)
  have third := verifies laterEvent 2 (by rw [late]; rfl)
  constructor
  · intro receipt inside
    simp only [keptReceipts, List.mem_cons, List.not_mem_nil, or_false] at inside
    rcases inside with rfl | rfl | rfl
    · exact ⟨_, _, first, rfl⟩
    · exact ⟨_, _, second, rfl⟩
    · exact ⟨_, _, third, rfl⟩
  · refine List.isChain_cons_cons.mpr ⟨.inr ?_, List.isChain_pair.mpr (.inl ?_)⟩
    · rw [chronicle_old, built_receipt_checkpoint]
    · rw [chronicleReceipt, chronicleReceipt, built_receipt_checkpoint, built_receipt_checkpoint]

theorem chronicle_hashed :
    ∀ input ∈ lineageInputs reference (keptReceipts now.store.events) chronicleLeaves,
    input ∈ chronicleInputs := by
  have legible := chronicle_legible now.store.toLedger rows checkpoints
  obtain ⟨early, late⟩ := chronicle_covered now.store.events rows
  obtain ⟨low, high⟩ := chronicle_heads now reached rows checkpoints
  have prefixes := chronicle_prefix_inputs now.store.events rows
  have joined := (one_to_three reference.toHashFunction (rowLeaf reference sampleEvent)
    (rowLeaf reference revisedEvent) (rowLeaf reference laterEvent)).2
  have first : receiptWalkInputs reference
      (receiptAt reference now.store.events sampleCheckpoint .null sampleEvent 0) = [] := by
    rw [receiptWalkInputs, receiptOldCheckpoint, built_receipt_consistency]
    rfl
  have walked (event : Event) (index : Nat) : ∀ input ∈ receiptWalkInputs reference
      (chronicleReceipt now.store.events chronicleLeaves.tail event index), input ∈ chronicleInputs := by
    intro input member
    have after : treeHead reference
      (receiptCheckpoint (chronicleReceipt now.store.events chronicleLeaves.tail event index)) =
        some (3, merkleRoot reference.toHashFunction chronicleLeaves) := by
      rw [chronicleReceipt, built_receipt_checkpoint]
      exact high
    rw [receiptWalkInputs, chronicle_old, low, after, chronicle_hashes _ _ fun item held =>
      chronicle_widths item (List.mem_of_mem_tail held)] at member
    obtain ⟨pair, inside, rfl⟩ := List.mem_map.mp (show input ∈ (consistencyPairs reference.toHashFunction 1 3
      (rowLeaf reference sampleEvent)
      [rowLeaf reference revisedEvent, rowLeaf reference laterEvent]).map pairInput from member)
    rw [joined] at inside
    rcases List.mem_pair.mp inside with rfl | rfl
    · simp [chronicleInputs]
    · simp [chronicleInputs]
  have built (event : Event) (index : Nat)
    (inside : (now.store.events.upTo laterCheckpoint.lastEventSequence)[index]? = some event) :
      ∀ input ∈ receiptInputs reference (chronicleReceipt now.store.events chronicleLeaves.tail event index),
        input ∈ chronicleInputs := by
    intro input member
    have committed : event ∈ now.store.events.rows := List.mem_of_mem_filter (List.mem_of_getElem? inside)
    exact prefixes laterCheckpoint (by simp) input
      (built_receipt_inputs reference _ _ _ event index (legible.events event committed) inside input member)
  intro input member
  rcases List.mem_append.mp member with tree | kept
  · obtain ⟨front, begins, hashed⟩ := List.mem_flatMap.mp tree
    exact chronicle_tree_inputs front begins input hashed
  · obtain ⟨receipt, inside, hashed⟩ := List.mem_flatMap.mp kept
    simp only [keptReceipts, List.mem_cons, List.not_mem_nil, or_false] at inside
    rcases inside with rfl | rfl | rfl
    · rw [first, List.append_nil] at hashed
      exact prefixes sampleCheckpoint (by simp) input (built_receipt_inputs reference _ _ _ sampleEvent 0
        (legible.events sampleEvent (by rw [rows]; simp)) (by rw [early]; rfl) input hashed)
    · rcases List.mem_append.mp hashed with own | along
      · exact built revisedEvent 1 (by rw [late]; rfl) input own
      · exact walked revisedEvent 1 input along
    · rcases List.mem_append.mp hashed with own | along
      · exact built laterEvent 2 (by rw [late]; rfl) input own
      · exact walked laterEvent 2 input along

end

theorem sample_receipt_kept : ∃ now : Config (postgres (Fin 5)) (Py Outcome),
    Reaches (postgres (Fin 5)) (start reference chronicle) now ∧
    (∃ sizes : List Nat, sizes.Pairwise (· ≤ ·) ∧
      List.Forall₂ (OfSize reference) (keptReceipts now.store.events) sizes) ∧
    ∀ receipt ∈ keptReceipts now.store.events, ∃ (size index : Nat) (data : Bytes),
    HeadOf reference chronicleLeaves receipt size ∧
      pyInt reference (receiptLeafIndex receipt) = .ok (index : Int) ∧ index < size ∧
      eventCommitmentBytes reference (receiptEvent receipt) = .ok data ∧
      chronicleLeaves[index]? = some (leafHash reference.toHashFunction data) := by
  obtain ⟨_, now, before, onward, _, rows, checkpoints⟩ := chronicle_run
  have reached := reaches_trans (postgres (Fin 5)) _ _ _ before onward
  obtain ⟨witnessed, followed⟩ := chronicle_kept now reached rows checkpoints
  obtain ⟨_, head⟩ := chronicle_heads now reached rows checkpoints
  have apart := collision_free_subset _ _ _ (chronicle_hashed now reached rows checkpoints)
    (chronicle_inputs_apart now reached rows)
  obtain ⟨sizes, _, found⟩ := kept_receipts_share_one_history reference (keptReceipts now.store.events)
    (collision_free_subset _ _ _ (fun input member => List.mem_append_right _ member) apart)
      witnessed followed
  refine ⟨now, reached, sizes, found chronicleLeaves ?_ apart ?_⟩
  · exact chronicle_widths
  · intro receipt last
    obtain rfl := Option.some.inj
      (show some (chronicleReceipt now.store.events chronicleLeaves.tail laterEvent 2) = some receipt
      from last)
    refine ⟨le_refl 3, ?_⟩
    rw [chronicleReceipt, built_receipt_checkpoint]
    exact head

end CalibrationLedger
