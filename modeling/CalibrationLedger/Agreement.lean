import CalibrationLedger.Proofs
import CalibrationLedger.Commitments

set_option autoImplicit false

-- What a keyring has a say in: whether a proof is built, and never what it is.
namespace CalibrationLedger

open JsonText Digest

section

variable {α β : Type}

-- Two outcomes that return the same if both return.
def Agrees (first second : Py α) : Prop :=
  ∀ value other, first = .ok value → second = .ok other → value = other

theorem agrees_refl (outcome : Py α) : Agrees outcome outcome := by
  intro value other left right
  exact Except.ok.inj (left.symm.trans right)

theorem agrees_after (first second : Py α) (next other : α → Py β)
    (rest : ∀ left right, Agrees (next left) (other right)) :
    Agrees (first >>= next) (second >>= other) := by
  intro value found left right
  obtain ⟨mid, _, onward⟩ := (bind_ok _ _ _).mp left
  obtain ⟨middle, _, further⟩ := (bind_ok _ _ _).mp right
  exact rest mid middle value found onward further

theorem agrees_bind (first second : Py α) (next other : α → Py β) (same : Agrees first second)
    (rest : ∀ value, Agrees (next value) (other value)) : Agrees (first >>= next) (second >>= other) := by
  intro value found left right
  obtain ⟨mid, came, onward⟩ := (bind_ok _ _ _).mp left
  obtain ⟨middle, arrived, further⟩ := (bind_ok _ _ _).mp right
  rw [← same mid middle came arrived] at further
  exact rest mid value found onward further

theorem agrees_map (entries : List α) (each other : α → Py β)
    (same : ∀ entry, Agrees (each entry) (other entry)) :
    Agrees (entries.mapM each) (entries.mapM other) := by
  induction entries with
  | nil => exact agrees_refl _
  | cons entry rest ih =>
      rw [List.mapM_cons, List.mapM_cons]
      exact agrees_bind _ _ _ _ (same entry) fun first => agrees_bind _ _ _ _ ih fun others => agrees_refl _

end

section

variable (rt : Runtime) (ledger : Ledger) (checkpoint : Checkpoint) (keyring other : Keyring)

theorem prefix_agrees (table : EventTable) :
    Agrees (validatedPrefix rt table checkpoint keyring) (validatedPrefix rt table checkpoint other) := by
  rw [validatedPrefix, validatedPrefix]
  split
  · exact agrees_refl _
  · refine agrees_bind _ _ _ _ (agrees_refl _) fun leaves => ?_
    split
    · exact agrees_refl _
    · refine agrees_after _ _ _ _ fun left right => agrees_after _ _ _ _ fun _ _ => ?_
      exact agrees_refl (pure (table.upTo checkpoint.lastEventSequence, leaves))

theorem consistency_agrees (leaves : List Bytes) :
    Agrees (buildConsistencyBundle rt ledger checkpoint leaves keyring)
      (buildConsistencyBundle rt ledger checkpoint leaves other) := by
  rw [buildConsistencyBundle, buildConsistencyBundle]
  split
  · exact agrees_refl _
  · split
    · exact agrees_refl _
    · exact agrees_after _ _ _ _ fun _ _ => agrees_refl _

theorem receipt_agrees (event : Event) :
    Agrees (buildReceiptAtCheckpoint rt ledger event checkpoint keyring)
      (buildReceiptAtCheckpoint rt ledger event checkpoint other) := by
  rw [buildReceiptAtCheckpoint, buildReceiptAtCheckpoint]
  refine agrees_bind _ _ _ _ (prefix_agrees rt checkpoint keyring other ledger.events) fun ⟨events,
    leaves⟩ => ?_
  dsimp only
  split
  · exact agrees_refl _
  · exact agrees_bind _ _ _ _ (consistency_agrees rt ledger checkpoint keyring other leaves)
      fun consistency => agrees_refl _

end

end CalibrationLedger
