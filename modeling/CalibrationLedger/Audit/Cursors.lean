import CalibrationLedger.Chain
import CalibrationLedger.Audit.Lifecycle

set_option autoImplicit false

-- The cursors of the consumers walk the checkpoint chain from its first element.
namespace CalibrationLedger

open JsonText Digest Interleaving

theorem chain_nodup (checkpoints : List Checkpoint) (chain : OneChain checkpoints) :
    (checkpoints.map Checkpoint.checkpointId).Nodup := List.pairwise_map.mpr chain.distinct

theorem chain_successor (checkpoints earlier later : List Checkpoint) (chain : OneChain checkpoints)
    (split : checkpoints = earlier ++ later) (checkpoint : Checkpoint) (member : checkpoint ∈ checkpoints)
    (follows : checkpoint.previousCheckpointId = earlier.getLast?.map Checkpoint.checkpointId) :
    ∃ rest, later = checkpoint :: rest := by
  have nodup := chain_nodup checkpoints chain
  obtain ⟨before, after, cut⟩ := List.append_of_mem member
  rcases List.eq_nil_or_concat before with rfl | ⟨others, previous, rfl⟩
  · have genesis := (chain.genesis checkpoint (by rw [cut]; rfl)).1
    rw [genesis] at follows
    have none : earlier = [] := by
      cases last : earlier.getLast? with
      | none => exact List.getLast?_eq_none_iff.mp last
      | some row =>
          rw [last] at follows
          cases follows
    subst none
    exact ⟨after, by rw [← List.nil_append later, ← split, cut, List.nil_append]⟩
  · rw [List.concat_eq_append, List.append_assoc] at cut
    have linked := chain.linked
    rw [cut, List.singleton_append] at linked
    have step : Follows previous checkpoint := (List.isChain_append.mp linked).2.1.rel
    rw [step.link] at follows
    obtain ⟨last, isLast, named⟩ := Option.map_eq_some_iff.mp follows.symm
    obtain ⟨front, whole⟩ := List.getLast?_eq_some_iff.mp isLast
    have inside : last ∈ checkpoints := by
      rw [split, whole]
      simp
    have held : previous ∈ checkpoints := by
      rw [cut]
      simp
    have same : last = previous := List.inj_on_of_nodup_map nodup inside held named
    subst same
    have unique := nodup.of_map
    rw [cut] at unique
    have apart := List.nodup_append.mp unique
    have aligned : others ++ last :: checkpoint :: after = front ++ last :: later := by
      rw [← List.singleton_append, ← cut, split, whole, List.append_assoc]
      rfl
    have notBefore : last ∉ others := fun early => apart.2.2 last early last List.mem_cons_self rfl
    have notAfter : last ∉ checkpoint :: after := (List.nodup_cons.mp apart.2.1).1
    obtain ⟨_, _, tails⟩ := (List.append_cons_inj_of_notMem notBefore notAfter).mp aligned
    exact ⟨after, tails.symm⟩

section

variable {κ : Type}

-- The checkpoints a consumer acknowledged, in the order it did.
def acknowledgedBy (acknowledged : List (Acknowledgement κ)) (consumer : Nat) : List Uuid :=
  (acknowledged.filter fun entry => entry.consumer = consumer).map Acknowledgement.checkpointId

structure Cursors (store : AuditStore κ) : Prop where
  chain : OneChain store.ledger.checkpoints
  followed : ∀ n, acknowledgedBy store.acknowledged n <+: store.ledger.checkpoints.map Checkpoint.checkpointId
  cursor : ∀ n row, store.consumers n = some row →
    row.lastCheckpointId = (acknowledgedBy store.acknowledged n).getLast?
  absent : ∀ n, store.consumers n = none → acknowledgedBy store.acknowledged n = []
  distinct : ∀ a b left right, store.consumers a = some left → store.consumers b = some right →
    left.consumerId = right.consumerId → a = b

theorem acknowledged_snoc (acknowledged : List (Acknowledgement κ)) (entry : Acknowledgement κ) (n : Nat) :
    acknowledgedBy (acknowledged ++ [entry]) n =
      acknowledgedBy acknowledged n ++ if entry.consumer = n then [entry.checkpointId] else [] := by
  rw [acknowledgedBy, acknowledgedBy, List.filter_append, List.map_append, List.filter_singleton]
  by_cases same : entry.consumer = n <;> simp [same]

theorem followed_next (checkpoints : List Checkpoint) (chain : OneChain checkpoints) (ids : List Uuid)
    (followed : ids <+: checkpoints.map Checkpoint.checkpointId) (checkpoint : Checkpoint)
    (member : checkpoint ∈ checkpoints) (follows : checkpoint.previousCheckpointId = ids.getLast?) :
    ids ++ [checkpoint.checkpointId] <+: checkpoints.map Checkpoint.checkpointId := by
  obtain ⟨more, whole⟩ := followed
  obtain ⟨earlier, later, split, rfl, rfl⟩ := List.map_eq_append_iff.mp whole.symm
  rw [List.getLast?_map] at follows
  obtain ⟨rest, rfl⟩ := chain_successor checkpoints earlier later chain split checkpoint member follows
  exact ⟨rest.map Checkpoint.checkpointId, by rw [split]; simp⟩

variable (i : κ) (request : AuditQuery) (store : AuditStore κ)

theorem cursors_effect (after : AuditStore κ) (effect : Effect i request store after) (filed : Filed store)
    (cursors : Cursors store) : Cursors after := by
  cases effect with
  | created row new fresh apart =>
      exact ⟨cursors.chain, cursors.followed, cursors.cursor, cursors.absent, cursors.distinct⟩
  | moved action id old new artifacts issued found moves delivers =>
      exact ⟨cursors.chain, cursors.followed, cursors.cursor, cursors.absent, cursors.distinct⟩
  | declined action id issued declines =>
      exact ⟨cursors.chain, cursors.followed, cursors.cursor, cursors.absent, cursors.distinct⟩
  | registered row new unread apart =>
      have others : ∀ n other, store.consumers n = some other → other.consumerId ≠ row.consumerId :=
        fun n other found =>
        apart other ((mem_consumer_rows store filed other).mpr
            (by rw [(filed.consumers n other found).1, found]))
      have none : store.consumers row.id = none := by
        cases found : store.consumers row.id with
        | none => rfl
        | some other =>
            have less := (filed.consumers row.id other found).2
            omega
      refine ⟨cursors.chain, cursors.followed, fun n found at_n => ?_, fun n nothing => ?_,
        fun a b left right at_a at_b same => ?_⟩
      · rcases put_cases _ _ _ n found at_n with ⟨rfl, rfl⟩ | ⟨_, old⟩
        · rw [unread]
          exact (congrArg List.getLast? (cursors.absent _ none)).symm
        · exact cursors.cursor n found old
      · by_cases same : n = row.id
        · subst n
          exact cursors.absent _ none
        · exact cursors.absent n (by simpa [Function.update_of_ne same] using nothing)
      · rcases put_cases _ _ _ a left at_a with ⟨isA, rfl⟩ | ⟨_, oldA⟩ <;>
          rcases put_cases _ _ _ b right at_b with ⟨isB, rfl⟩ | ⟨_, oldB⟩
        · exact isA.trans isB.symm
        · exact absurd same.symm (others b right oldB)
        · exact absurd same (others a left oldA)
        · exact cursors.distinct a b left right oldA oldB same
  | advanced id consumer row checkpointId found follows moved named =>
      obtain ⟨checkpoint, member, rfl, link⟩ := follows
      have last := cursors.cursor id consumer found
      have next := followed_next _ cursors.chain _ (cursors.followed id) checkpoint member (link.trans last)
      refine ⟨cursors.chain, fun n => ?_, fun n other at_n => ?_, fun n nothing => ?_,
        fun a b left right at_a at_b same => ?_⟩
      · rw [acknowledged_snoc]
        by_cases same : id = n
        · subst n
          rw [if_pos rfl]
          exact next
        · rw [if_neg same, List.append_nil]
          exact cursors.followed n
      · rw [acknowledged_snoc]
        rcases put_cases _ _ _ n other at_n with ⟨rfl, rfl⟩ | ⟨different, old⟩
        · rw [if_pos rfl, moved, List.getLast?_concat]
        · rw [if_neg different.symm, List.append_nil]
          exact cursors.cursor n other old
      · rw [acknowledged_snoc]
        by_cases same : n = id
        · subst n
          simp at nothing
        · rw [if_neg (Ne.symm same), List.append_nil]
          exact cursors.absent n (by simpa [Function.update_of_ne same] using nothing)
      · rcases put_cases _ _ _ a left at_a with ⟨isA, rfl⟩ | ⟨_, oldA⟩ <;>
          rcases put_cases _ _ _ b right at_b with ⟨isB, rfl⟩ | ⟨_, oldB⟩
        · exact isA.trans isB.symm
        · exact isA.trans (cursors.distinct id b consumer right found oldB (named.2.symm.trans same))
        · exact (cursors.distinct a id left consumer oldA found (same.trans named.2)).trans isB.symm
        · exact cursors.distinct a b left right oldA oldB same

theorem cursors_grow (ledger : Ledger) (grows : LedgerGrows store.ledger ledger)
    (chain : OneChain ledger.checkpoints) (cursors : Cursors store) :
    Cursors { store with ledger } := by
  obtain ⟨more, appended⟩ := grows.appended
  refine ⟨chain, fun n => ?_, cursors.cursor, cursors.absent, cursors.distinct⟩
  rw [appended, List.map_append]
  exact (cursors.followed n).trans (List.prefix_append _ _)

end

end CalibrationLedger
