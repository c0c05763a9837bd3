import CalibrationLedger.Idempotency
import CalibrationLedger.Library.Deeds

set_option autoImplicit false

-- What a batch does at each of its statements, whatever the other sessions do.
namespace CalibrationLedger

open JsonText Digest Interleaving

section

variable (rt : Runtime)

theorem encode_utf8_raises (content : Text) (error : PyError)
    (failed : encodeUtf8 content = .error error) : error = .valueError := by
  induction content with
  | nil => cases failed
  | cons point rest ih =>
      cases point with
      | surrogate unit =>
          cases failed
          rfl
      | scalar char =>
          rw [encodeUtf8] at failed
          cases encoded : encodeUtf8 rest with
          | ok data =>
              rw [encoded] at failed
              cases failed
          | error other =>
              rw [encoded] at failed
              cases failed
              exact ih encoded

theorem digest_json_raises (value : Json) (error : PyError)
    (failed : digestJson rt value = .error error) : error = .valueError := by
  rw [digestJson, canonicalJson, dumps] at failed
  by_cases infinite : nonFinite value = true
  · rw [if_pos infinite] at failed
    cases failed
    rfl
  · rw [if_neg infinite] at failed
    cases encoded : encodeUtf8 (render (jsonFloat rt.floatRepr) (sortKeys value)) with
    | ok data => simp [encoded, Except.map] at failed
    | error other =>
        have same : other = error := by simpa [encoded, Except.map] using failed
        rw [← same]
        exact encode_utf8_raises _ other encoded

-- The item of a valid report.
def preparedItem (request : SubmitReport) (reportDigest : String) : PreparedReport :=
  ⟨request, reportDigest, sha256Hex rt (fingerprintInput rt (reportSubmission request reportDigest))⟩

theorem report_fingerprinted (request : SubmitReport) (reportDigest : String) :
    reportFingerprint rt request reportDigest = .ok (preparedItem rt request reportDigest).fingerprint := by
  obtain ⟨found, made⟩ := fingerprint_made rt (reportSubmission request reportDigest)
  have covered := fingerprint_of_members rt _ found made
  rw [covered] at made
  exact made

theorem prepare_valid (index : Nat) (request : SubmitReport) (reportDigest : String)
    (digested : digestJson rt request.report = .ok reportDigest) :
    prepareBatchReport rt index request = .ok (preparedItem rt request reportDigest) := by
  rw [prepareBatchReport, batchDigest, digested]
  show (reportFingerprint rt request reportDigest >>= fun found => _) = _
  rw [report_fingerprinted]
  rfl

theorem prepare_invalid (index : Nat) (request : SubmitReport)
    (failed : digestJson rt request.report = .error .valueError) :
    prepareBatchReport rt index request = .error (invalidReport rt index request) := by
  rw [prepareBatchReport, batchDigest, failed]
  rfl

-- The report canonicalizes.
def Valid (request : SubmitReport) : Prop := ∃ reportDigest, digestJson rt request.report = .ok reportDigest

-- The report has this fingerprint.
def Content (request : SubmitReport) (fingerprint : String) : Prop :=
  ∃ reportDigest, digestJson rt request.report = .ok reportDigest ∧
    fingerprint = (preparedItem rt request reportDigest).fingerprint

theorem invalid_raises (request : SubmitReport) (invalid : ¬ Valid rt request) :
    digestJson rt request.report = .error .valueError := by
  cases digested : digestJson rt request.report with
  | ok reportDigest => exact absurd ⟨reportDigest, digested⟩ invalid
  | error error => rw [digest_json_raises rt _ error digested]

theorem prepare_batch_valid (index : Nat) (requests : List SubmitReport) (prepared : List PreparedReport) :
    prepareBatch rt index requests = .ok prepared ↔ List.Forall₂ (fun request item =>
      ∃ reportDigest, digestJson rt request.report = .ok reportDigest ∧
          item = preparedItem rt request reportDigest) requests prepared := by
  induction requests generalizing index prepared with
  | nil =>
      constructor
      · rintro ⟨⟩
        exact .nil
      · rintro ⟨⟩
        rfl
  | cons request rest ih =>
      constructor
      · intro made
        obtain ⟨item, first, onward⟩ := (bind_ok _ _ _).mp made
        obtain ⟨later, others, whole⟩ := (bind_ok _ _ _).mp onward
        cases whole
        refine .cons ?_ ((ih (index + 1) later).mp others)
        by_cases valid : Valid rt request
        · obtain ⟨reportDigest, digested⟩ := valid
          rw [prepare_valid rt index request reportDigest digested] at first
          exact ⟨reportDigest, digested, (Except.ok.inj first).symm⟩
        · rw [prepare_invalid rt index request (invalid_raises rt request valid)] at first
          cases first
      · rintro (_ | ⟨⟨reportDigest, digested, rfl⟩, others⟩)
        rw [prepareBatch, prepare_valid rt index request reportDigest digested]
        show (prepareBatch rt (index + 1) rest >>= fun later => _) = _
        rw [(ih (index + 1) _).mpr others]
        rfl

theorem prepare_batch_invalid (index : Nat) (requests : List SubmitReport) (error : PyError)
    (failed : prepareBatch rt index requests = .error error) :
    ∃ earlier request later, requests = earlier ++ request :: later ∧
      error = invalidReport rt (index + earlier.length) request ∧ ¬ Valid rt request ∧
      ∀ other ∈ earlier, Valid rt other := by
  induction requests generalizing index with
  | nil => cases failed
  | cons request rest ih =>
      by_cases valid : Valid rt request
      · obtain ⟨reportDigest, digested⟩ := id valid
        rw [prepareBatch, prepare_valid rt index request reportDigest digested] at failed
        cases onward : prepareBatch rt (index + 1) rest with
        | ok later =>
            change (prepareBatch rt (index + 1) rest >>= fun later => _) = _ at failed
            rw [onward] at failed
            cases failed
        | error other =>
            change (prepareBatch rt (index + 1) rest >>= fun later => _) = _ at failed
            rw [onward] at failed
            cases failed
            obtain ⟨earlier, first, later, rfl, rfl, invalid, others⟩ := ih (index + 1) onward
            refine ⟨request :: earlier, first, later,
              rfl, by rw [List.length_cons, Nat.add_assoc, Nat.add_comm 1], invalid, fun next member => ?_⟩
            rcases List.mem_cons.mp member with rfl | inside
            · exact valid
            · exact others next inside
      · rw [prepareBatch, prepare_invalid rt index request (invalid_raises rt request valid)] at failed
        cases failed
        exact ⟨[], request, rest, rfl, rfl, valid, fun other none => by cases none⟩

end

section

variable {ι : Type}

-- A sequence value given out is no row's yet, and nobody else's; a row is committed
-- or some one session's.
structure Sequenced (store : Store ι) : Prop where
  unused : ∀ i sequence row, (store.transactions i).allocated = some sequence → store.Holds row →
    row.sequence ≠ sequence
  apart : ∀ i j sequence, (store.transactions i).allocated = some sequence →
    (store.transactions j).allocated = some sequence → i = j
  pending : ∀ i row, row ∈ (store.transactions i).events → row ∉ store.events.rows
  separate : ∀ i j row, row ∈ (store.transactions i).events → row ∈ (store.transactions j).events → i = j

theorem sequenced_empty : Sequenced (Store.empty ι) := by
  refine ⟨fun i sequence row given _ => ?_, fun i j sequence given _ => ?_, fun i row member => ?_,
    fun i j row member _ => ?_⟩
  · cases given
  · cases given
  · cases member
  · cases member

theorem sequenced_fewer (store next : Store ι) (events : next.events = store.events)
    (given : ∀ j sequence, (next.transactions j).allocated = some sequence →
      (store.transactions j).allocated = some sequence)
    (own : ∀ j row, row ∈ (next.transactions j).events → row ∈ (store.transactions j).events)
    (sequenced : Sequenced store) : Sequenced next where
  unused i sequence row value held := by
    refine sequenced.unused i sequence row (given i sequence value) ?_
    rcases held with committed | ⟨j, member⟩
    · exact .inl (events ▸ committed)
    · exact .inr ⟨j, own j row member⟩
  apart i j sequence left right :=
    sequenced.apart i j sequence (given i sequence left) (given j sequence right)
  pending i row member committed := sequenced.pending i row (own i row member) (events ▸ committed)
  separate i j row left right := sequenced.separate i j row (own i row left) (own j row right)

variable [DecidableEq ι]

theorem sequenced_locking (store : Store ι) (i : ι) (change : Transaction → Transaction)
    (events : (change (store.transactions i)).events = (store.transactions i).events)
    (allocated : (change (store.transactions i)).allocated = (store.transactions i).allocated)
    (sequenced : Sequenced store) : Sequenced (store.update i change) := by
  refine sequenced_fewer store _ rfl (fun j sequence value => ?_) (fun j row member => ?_) sequenced
  · rcases update_cases store i j change with ⟨rfl, is⟩ | ⟨_, is⟩
    · rw [is, allocated] at value
      exact value
    · rw [is] at value
      exact value
  · rcases update_cases store i j change with ⟨rfl, is⟩ | ⟨_, is⟩
    · rw [is, events] at member
      exact member
    · rw [is] at member
      exact member

theorem sequenced_rollback (store : Store ι) (i : ι) (sequenced : Sequenced store) :
    Sequenced (store.rollback i) := by
  refine sequenced_fewer store _ rfl (fun j sequence value => ?_) (fun j row member => ?_) sequenced
  · rcases update_cases store i j fun _ => Transaction.idle with ⟨_, is⟩ | ⟨_, is⟩
    · rw [Store.rollback, is] at value
      cases value
    · rw [Store.rollback, is] at value
      exact value
  · rcases update_cases store i j fun _ => Transaction.idle with ⟨_, is⟩ | ⟨_, is⟩
    · rw [Store.rollback, is] at member
      cases member
    · rw [Store.rollback, is] at member
      exact member

theorem sequenced_commit (store : Store ι) (i : ι) (sequenced : Sequenced store) :
    Sequenced (store.commit i) := by
  have cases : ∀ j, (store.commit i).transactions j = Transaction.idle ∨
      j ≠ i ∧ (store.commit i).transactions j = store.transactions j := by
    intro j
    by_cases same : j = i
    · exact .inl (by simp [Store.commit, same])
    · exact .inr ⟨same, by simp [Store.commit, same]⟩
  have own : ∀ j row, row ∈ ((store.commit i).transactions j).events → j ≠ i ∧
      row ∈ (store.transactions j).events := by
    intro j row member
    rcases cases j with is | ⟨other, is⟩
    · rw [is] at member
      cases member
    · rw [is] at member
      exact ⟨other, member⟩
  have given : ∀ j sequence, ((store.commit i).transactions j).allocated = some sequence →
      (store.transactions j).allocated = some sequence := by
    intro j sequence value
    rcases cases j with is | ⟨_, is⟩
    · rw [is] at value
      cases value
    · rw [is] at value
      exact value
  refine ⟨fun j sequence row value held => ?_, fun j k sequence left right => ?_,
    fun j row member committed => ?_,
    fun j k row left right => sequenced.separate j k row (own j row left).2 (own k row right).2⟩
  · refine sequenced.unused j sequence row (given j sequence value) ?_
    rcases held with committed | ⟨k, member⟩
    · exact visible_holds store i row committed
    · exact .inr ⟨k, (own k row member).2⟩
  · exact sequenced.apart j k sequence (given j sequence left) (given k sequence right)
  · obtain ⟨other, held⟩ := own j row member
    rcases mem_insert_all store.events _ row committed with new | old
    · exact other (sequenced.separate j i row held new)
    · exact sequenced.pending j row held old

variable (rt : Runtime) (signing : Text → Bytes → Prop)

theorem sequenced_nextval (store : Store ι) (i : ι) (value : Int) (above : store.nextSequence ≤ value)
    (sound : Sound rt signing store) (sequenced : Sequenced store) :
    Sequenced ((({ store with nextSequence := value + 1 } : Store ι)).update i fun tx =>
      { tx with allocated := some value }) := by
  have cases := fun j => update_cases ({ store with nextSequence := value + 1 } : Store ι) i j fun tx =>
    { tx with allocated := some value }
  have below : ∀ j sequence, (store.transactions j).allocated = some sequence → sequence < value := by
    intro j sequence given
    have limit := (sound.allocated j sequence given).2.1
    omega
  have own : ∀ j row, row ∈ (((({ store with nextSequence := value + 1 } : Store ι)).update i
      fun tx => { tx with allocated := some value }).transactions j).events →
          row ∈ (store.transactions j).events := by
    intro j row member
    rcases cases j with ⟨rfl, is⟩ | ⟨_, is⟩
    · rw [is] at member
      exact member
    · rw [is] at member
      exact member
  have holds : ∀ row, ((({ store with nextSequence := value + 1 } : Store ι)).update i
      fun tx => { tx with allocated := some value }).Holds row → store.Holds row := fun row held =>
    held.imp_right fun ⟨j, member⟩ => ⟨j, own j row member⟩
  refine ⟨fun j sequence row given held => ?_, fun j k sequence left right => ?_,
    fun j row member => sequenced.pending j row (own j row member),
    fun j k row left right => sequenced.separate j k row (own j row left) (own k row right)⟩
  · rcases cases j with ⟨_, is⟩ | ⟨_, is⟩
    · rw [is] at given
      have drawn : value = sequence := Option.some.inj given
      have limit := (sound.sequences row (holds row held)).2
      omega
    · rw [is] at given
      exact sequenced.unused j sequence row given (holds row held)
  · rcases cases j with ⟨first, isJ⟩ | ⟨_, isJ⟩ <;> rcases cases k with ⟨second, isK⟩ | ⟨_, isK⟩
    · rw [first, second]
    · rw [isJ] at left
      rw [isK] at right
      have drawn : value = sequence := Option.some.inj left
      have less := below k sequence right
      omega
    · rw [isJ] at left
      rw [isK] at right
      have drawn : value = sequence := Option.some.inj right
      have less := below j sequence left
      omega
    · rw [isJ] at left
      rw [isK] at right
      exact sequenced.apart j k sequence left right

theorem sequenced_insert (store : Store ι) (i : ι) (row : Event)
    (given : (store.transactions i).allocated = some row.sequence) (sequenced : Sequenced store) :
    Sequenced (store.update i fun tx => { tx with allocated := none, events := tx.events ++ [row] }) := by
  have cases := fun j => update_cases store i j fun tx =>
    { tx with allocated := none, events := tx.events ++ [row] }
  have others : ∀ j sequence, ((store.update i fun tx =>
      { tx with allocated := none, events := tx.events ++ [row] }).transactions j).allocated = some sequence →
        j ≠ i ∧ (store.transactions j).allocated = some sequence := by
    intro j sequence value
    rcases cases j with ⟨_, is⟩ | ⟨other, is⟩
    · rw [is] at value
      cases value
    · rw [is] at value
      exact ⟨other, value⟩
  have own : ∀ j other, other ∈ ((store.update i fun tx =>
      { tx with allocated := none, events := tx.events ++ [row] }).transactions j).events →
        other ∈ (store.transactions j).events ∨ j = i ∧ other = row := by
    intro j other member
    rcases cases j with ⟨same, is⟩ | ⟨_, is⟩
    · rw [is] at member
      rcases List.mem_append.mp member with old | new
      · exact .inl (same ▸ old)
      · exact .inr ⟨same, List.mem_singleton.mp new⟩
    · rw [is] at member
      exact .inl member
  have unheld : ¬ store.Holds row := fun held => sequenced.unused i row.sequence row given held rfl
  refine ⟨fun j sequence held value inside => ?_, fun j k sequence left right => ?_, fun j other member => ?_,
    fun j k other left right => ?_⟩
  · replace ⟨other, value⟩ := others j sequence value
    rcases inside with committed | ⟨k, member⟩
    · exact sequenced.unused j sequence held value (.inl committed)
    · rcases own k held member with old | ⟨_, rfl⟩
      · exact sequenced.unused j sequence held value (.inr ⟨k, old⟩)
      · rintro rfl
        exact other (sequenced.apart j i _ value given)
  · exact sequenced.apart j k sequence (others j sequence left).2 (others k sequence right).2
  · rcases own j other member with old | ⟨_, rfl⟩
    · exact sequenced.pending j other old
    · exact fun committed => unheld (.inl committed)
  · rcases own j other left with first | ⟨isJ, first⟩ <;> rcases own k other right with second | ⟨isK, second⟩
    · exact sequenced.separate j k other first second
    · exact absurd (.inr ⟨j, second ▸ first⟩) unheld
    · exact absurd (.inr ⟨k, first ▸ second⟩) unheld
    · rw [isJ, isK]

variable [Fintype ι]

theorem respond_sequenced (i : ι) (query : Statement) (store : Store ι) (before : Supply)
    (response : Response query) (next : Store ι) (after : Supply) (sound : Sound rt signing store)
    (sequenced : Sequenced store) (allowed : Allowed rt signing i query store)
    (answer : respond i query store before = some (response, next, after)) : Sequenced next := by
  cases query with
  | lockShared =>
      rw [respond] at answer
      split at answer <;> cases answer
      exact sequenced_locking store i _ rfl rfl sequenced
  | selectForUpdate eventId =>
      rw [respond] at answer
      split at answer
      · cases answer
        exact sequenced
      · split at answer <;> cases answer
        exact sequenced_locking store i _ rfl rfl sequenced
  | nextval =>
      cases answer
      exact sequenced_nextval rt signing store i _ (by omega) sound sequenced
  | insertEvent row =>
      rw [respond] at answer
      split at answer
      · cases answer
        exact sequenced
      · split at answer <;> cases answer
        exact sequenced_insert store i row allowed.1 sequenced
  | tryLockExclusive =>
      rw [respond] at answer
      split at answer <;> cases answer
      · exact sequenced
      · exact sequenced_locking store i _ rfl rfl sequenced
  | insertCheckpoint checkpoint =>
      rw [respond] at answer
      split at answer
      · cases answer
        exact sequenced
      · split at answer <;> cases answer
        exact sequenced_locking store i _ rfl rfl sequenced
  | commit =>
      cases answer
      exact sequenced_commit store i sequenced
  | rollback =>
      cases answer
      exact sequenced_rollback store i sequenced
  | _ =>
      cases answer
      exact sequenced

variable (ι) in
def orderly : Discipline (postgres ι) :=
  (discipline ι rt signing).within Sequenced (respond_sequenced rt signing) fun i store _ =>
    sequenced_rollback store i

end

section

variable {ι : Type}

-- An insert no row in sight has the id of.
def UnusedId (i : ι) (query : Statement) (store : Store ι) : Prop :=
  match query with
  | .insertEvent event => ∀ row ∈ (store.visible i).rows, row.eventId ≠ event.eventId
  | _ => True

-- Where a batch with these keys is when it inserts: the keys before this one are in
-- sight, and its own rows are among them.
def Placed (keys : List String) (i : ι) (query : Statement) (store : Store ι) : Prop :=
  match query with
  | .insertEvent event => event.previousEventId = none ∧
      ∃ earlier later, keys = earlier ++ event.businessKey :: later ∧
      event.businessKey ∉ earlier ∧ (∀ row ∈ (store.transactions i).events, row.businessKey ∈ earlier) ∧
      ∀ key ∈ earlier, ∃ row, Seen i row store ∧ row.businessKey = key
  | .tryLockExclusive => False
  | .selectForUpdate _ => False
  | .insertCheckpoint _ => False
  | .commit => False
  | .rollback => False
  | _ => True

def createdRows (pairs : List (Event × Bool)) : List Event := (pairs.filter Prod.snd).map Prod.fst

-- Only the first item with a key creates its row.
def CreatesFirst (earlier : List String) (pairs : List (Event × Bool)) : Prop :=
  ∀ before row after, pairs = before ++ (row, true) :: after →
    row.businessKey ∉ earlier ∧ ∀ pair ∈ before, pair.1.businessKey ≠ row.businessKey

-- What a batch has written once it has these answers.
structure Fulfilled (i : ι) (earlier : List String) (appended : List Event) (items : List PreparedReport)
    (pairs : List (Event × Bool)) (store : Store ι) : Prop where
  own : (store.transactions i).events = appended ++ createdRows pairs
  answers : BatchAnswers i items pairs store
  first : CreatesFirst earlier pairs

theorem creates_first_cons (earlier : List String) (event : Event) (created : Bool)
    (later : List (Event × Bool)) (unlisted : created = true → event.businessKey ∉ earlier)
    (first : CreatesFirst (earlier ++ [event.businessKey]) later) :
    CreatesFirst earlier ((event, created) :: later) := by
  intro before row after split
  cases before with
  | nil =>
      obtain ⟨⟨rfl, rfl⟩, rfl⟩ : (event = row ∧ created = true) ∧ later = after := by simpa using split
      exact ⟨unlisted rfl, fun pair none => by cases none⟩
  | cons pair before =>
      obtain ⟨rfl, rfl⟩ : (event, created) = pair ∧
        later = before ++ (row, true) :: after := by simpa using split
      obtain ⟨unseen, others⟩ := first before row after rfl
      obtain ⟨unlisted, apart⟩ : row.businessKey ∉ earlier ∧
        row.businessKey ≠ event.businessKey := by simpa using unseen
      refine ⟨unlisted, fun other member => ?_⟩
      rcases List.mem_cons.mp member with rfl | inside
      · exact Ne.symm apart
      · exact others other inside

def Collides (prepared : List PreparedReport) : Prop :=
  ∃ a ∈ prepared, ∃ b ∈ prepared, a.request.businessKey = b.request.businessKey ∧
    a.fingerprint ≠ b.fingerprint

def Taken (prepared : List PreparedReport) (store : Store ι) : Prop :=
  ∃ item ∈ prepared, ∃ row ∈ store.events.rows, row.businessKey = item.request.businessKey ∧
    row.contentFingerprint ≠ item.fingerprint

-- A key of the batch that was committed in the meantime.
structure Outrun (keys : List String) (before now : Store ι) (key : String) : Prop where
  asked : key ∈ keys
  committed : ∃ row ∈ now.events.rows, row.businessKey = key
  absent : ∀ row ∈ before.events.rows, row.businessKey ≠ key

-- Why the insertion of a batch fails, if its ids are fresh.
def Failed (fresh : Prop) (prepared : List PreparedReport) (before : Store ι) (error : PyError)
    (now : Store ι) : Prop :=
  Conflict error ∧ (Collides prepared ∨ Taken prepared now) ∨
    error = .integrityError ∧ (fresh → ∃ key, Outrun (batchKeys prepared) before now key)

-- Inside the loop over the items, some of them done.
structure InBatchLoop (i : ι) (prepared done : List PreparedReport) (before : Store ι)
    (resolved appended : List Event) (store : Store ι) : Prop where
  own : (store.transactions i).events = appended
  seen : ∀ row ∈ resolved, Seen i row store
  within : ∀ row ∈ appended, row ∈ resolved
  covered : ∀ item ∈ done, ∃ row ∈ resolved, row.businessKey = item.request.businessKey
  made : ∀ row ∈ appended, ∃ item ∈ done, row.businessKey = item.request.businessKey ∧
    row.contentFingerprint = item.fingerprint
  read : ∀ row ∈ before.events.rows, row.businessKey ∈ batchKeys prepared →
    ∃ other ∈ resolved, other.businessKey = row.businessKey

theorem outrun_stable (keys : List String) (before store now : Store ι) (key : String)
    (grows : ∀ row ∈ store.events.rows, row ∈ now.events.rows) (lost : Outrun keys before store key) :
    Outrun keys before now key := by
  obtain ⟨asked, ⟨row, member, keyed⟩, absent⟩ := lost
  exact ⟨asked, ⟨row, grows row member, keyed⟩, absent⟩

theorem taken_stable (prepared : List PreparedReport) (store now : Store ι)
    (grows : ∀ row ∈ store.events.rows, row ∈ now.events.rows) (taken : Taken prepared store) :
    Taken prepared now := by
  obtain ⟨item, inside, row, member, differs⟩ := taken
  exact ⟨item, inside, row, grows row member, differs⟩

theorem failed_stable (fresh : Prop) (prepared : List PreparedReport) (before : Store ι)
    (error : PyError) (store now : Store ι) (grows : ∀ row ∈ store.events.rows, row ∈ now.events.rows)
    (failed : Failed fresh prepared before error store) : Failed fresh prepared before error now := by
  rcases failed with ⟨conflict, reason⟩ | ⟨refused, lost⟩
  · exact .inl ⟨conflict, reason.imp_right (taken_stable prepared store now grows)⟩
  · refine .inr ⟨refused, fun premise => ?_⟩
    obtain ⟨key, lost⟩ := lost premise
    exact ⟨key, outrun_stable _ before store now key grows lost⟩

theorem fulfilled_stable (i : ι) (earlier : List String) (appended : List Event)
    (items : List PreparedReport) (pairs : List (Event × Bool)) (store now : Store ι)
    (others : LedgerRely i store now) (fulfilled : Fulfilled i earlier appended items pairs store) :
    Fulfilled i earlier appended items pairs now where
  own := by rw [others.own]; exact fulfilled.own
  answers := by
    refine List.Forall₂.imp (fun item pair found => ?_) fulfilled.answers
    exact ⟨seen_stable i pair.1 store now others found.1, found.2⟩
  first := fulfilled.first

theorem in_batch_loop_stable (i : ι) (prepared done : List PreparedReport) (before : Store ι)
    (resolved appended : List Event) (store now : Store ι) (others : LedgerRely i store now)
    (midway : InBatchLoop i prepared done before resolved appended store) :
    InBatchLoop i prepared done before resolved appended now where
  own := by rw [others.own]; exact midway.own
  seen row member := seen_stable i row store now others (midway.seen row member)
  within := midway.within
  covered := midway.covered
  made := midway.made
  read := midway.read

theorem in_batch_loop_placed (i : ι) (prepared done rest : List PreparedReport) (item : PreparedReport)
    (before : Store ι) (resolved appended : List Event) (store : Store ι)
    (midway : InBatchLoop i prepared done before resolved appended store)
    (split : prepared = done ++ item :: rest)
    (unresolved : ∀ row ∈ resolved, row.businessKey ≠ item.request.businessKey) (event : Event)
    (parentless : event.previousEventId = none) (keyed : event.businessKey = item.request.businessKey) :
    Placed (batchKeys prepared) i (.insertEvent event) store := by
  refine ⟨parentless, batchKeys done, batchKeys rest, ?_, ?_, fun row own => ?_, fun key earlier => ?_⟩
  · rw [keyed, split]
    simp [batchKeys]
  · intro earlier
    obtain ⟨other, inside, same⟩ := List.mem_map.mp earlier
    obtain ⟨row, member, found⟩ := midway.covered other inside
    exact unresolved row member (found.trans (same.trans keyed))
  · rw [midway.own] at own
    obtain ⟨other, inside, same, _⟩ := midway.made row own
    exact List.mem_map.mpr ⟨other, inside, same.symm⟩
  · obtain ⟨other, inside, rfl⟩ := List.mem_map.mp earlier
    obtain ⟨row, member, found⟩ := midway.covered other inside
    exact ⟨row, midway.seen row member, found⟩

section

variable [DecidableEq ι]

theorem in_batch_loop_counted (i : ι) (prepared done : List PreparedReport) (before : Store ι)
    (resolved appended : List Event) (store : Store ι) (next value : Int)
    (midway : InBatchLoop i prepared done before resolved appended store) :
    InBatchLoop i prepared done before resolved appended
      ((({ store with nextSequence := next } : Store ι)).update i fun tx =>
        { tx with allocated := some value }) where
  own := by rw [update_same]; exact midway.own
  seen row member := by
    refine (midway.seen row member).imp_right fun own => ?_
    rw [update_same]
    exact own
  within := midway.within
  covered := midway.covered
  made := midway.made
  read := midway.read

theorem in_batch_loop_inserted (i : ι) (prepared done : List PreparedReport) (item : PreparedReport)
    (before : Store ι) (resolved appended : List Event) (store : Store ι) (row : Event)
    (keyed : row.businessKey = item.request.businessKey)
    (matched : row.contentFingerprint = item.fingerprint)
    (midway : InBatchLoop i prepared done before resolved appended store) :
    InBatchLoop i prepared (done ++ [item]) before (resolved ++ [row]) (appended ++ [row])
      (store.update i fun tx => { tx with allocated := none, events := tx.events ++ [row] }) where
  own := by rw [update_same, midway.own]
  seen other member := by
    rcases List.mem_append.mp member with old | new
    · refine (midway.seen other old).imp_right fun own => ?_
      rw [update_same]
      exact List.mem_append_left _ own
    · rw [List.mem_singleton.mp new]
      refine .inr ?_
      rw [update_same]
      exact List.mem_append_right _ (List.mem_singleton_self _)
  within other member := by
    rcases List.mem_append.mp member with old | new
    · exact List.mem_append_left _ (midway.within other old)
    · exact List.mem_append_right _ new
  covered other member := by
    rcases List.mem_append.mp member with old | new
    · obtain ⟨found, inside, same⟩ := midway.covered other old
      exact ⟨found, List.mem_append_left _ inside, same⟩
    · rw [List.mem_singleton.mp new]
      exact ⟨row, List.mem_append_right _ (List.mem_singleton_self _), keyed⟩
  made other member := by
    rcases List.mem_append.mp member with old | new
    · obtain ⟨found, inside, same⟩ := midway.made other old
      exact ⟨found, List.mem_append_left _ inside, same⟩
    · rw [List.mem_singleton.mp new]
      exact ⟨item, List.mem_append_right _ (List.mem_singleton_self _), keyed, matched⟩
  read other member asked := by
    obtain ⟨found, inside, same⟩ := midway.read other member asked
    exact ⟨found, List.mem_append_left _ inside, same⟩

end

theorem in_batch_loop_found (i : ι) (prepared done : List PreparedReport) (item : PreparedReport)
    (before : Store ι) (resolved appended : List Event) (store : Store ι) (row : Event)
    (member : row ∈ resolved) (keyed : row.businessKey = item.request.businessKey)
    (midway : InBatchLoop i prepared done before resolved appended store) :
    InBatchLoop i prepared (done ++ [item]) before resolved appended store where
  own := midway.own
  seen := midway.seen
  within := midway.within
  covered other inside := by
    rcases List.mem_append.mp inside with old | new
    · exact midway.covered other old
    · rw [List.mem_singleton.mp new]
      exact ⟨row, member, keyed⟩
  made other inside := by
    obtain ⟨found, old, same⟩ := midway.made other inside
    exact ⟨found, List.mem_append_left _ old, same⟩
  read := midway.read

-- A row that differs from its item is a committed one, or another item's.
theorem in_batch_loop_differs (i : ι) (prepared done : List PreparedReport) (item : PreparedReport)
    (before : Store ι) (resolved appended : List Event) (store : Store ι) (row : Event)
    (member : row ∈ resolved) (keyed : row.businessKey = item.request.businessKey)
    (differs : row.contentFingerprint ≠ item.fingerprint) (inside : item ∈ prepared)
    (earlier : ∀ other ∈ done, other ∈ prepared)
    (midway : InBatchLoop i prepared done before resolved appended store) :
    Collides prepared ∨ Taken prepared store := by
  rcases midway.seen row member with committed | own
  · exact .inr ⟨item, inside, row, committed, keyed, differs⟩
  · rw [midway.own] at own
    obtain ⟨other, old, same, matched⟩ := midway.made row own
    refine .inl ⟨other, earlier other old, item, inside, same.symm.trans keyed, ?_⟩
    rw [← matched]
    exact differs

variable (rt : Runtime) (signing : Text → Bytes → Prop)

theorem refused_key (i : ι) (store : Store ι) (event : Event) (sequenced : Sequenced store)
    (allowed : Allowed rt signing i (.insertEvent event) store) (parentless : event.previousEventId = none)
    (unused : UnusedId i (.insertEvent event) store) (refused : store.admits i event = false) :
    ∃ row, Seen i row store ∧ row.businessKey = event.businessKey := by
  obtain ⟨given, _, formed, _⟩ := allowed
  rw [Store.admits, formed.payload, parentless, Bool.true_and, Bool.and_true, List.all_eq_false] at refused
  obtain ⟨row, member, clashes⟩ := refused
  simp only [Event.clashes, parentless, Bool.not_eq_true, Bool.not_eq_false', Bool.or_eq_true,
    decide_eq_true_eq,
    Option.isSome_none, Bool.false_and, Bool.false_eq_true, or_false] at clashes
  rcases clashes with (sequence | eventId) | keyed
  · exact absurd sequence.symm (sequenced.unused i _ row given (visible_holds store i row member))
  · exact absurd eventId.symm (unused row member)
  · exact ⟨row, visible_seen i row store member, keyed.symm⟩

variable [DecidableEq ι] [Fintype ι] (more : ι → Statement → Store ι → Prop)

-- Every insert of the session has a fresh id.
def Unused (i : ι) : Prop := ∀ query store, more i query store → UnusedId i query store

abbrev Placing {α : Type} (i : ι) (prepared : List PreparedReport) (before : Store ι)
    (good : α → Store ι → Prop) (body : Tx α) (store : Store ι) : Prop :=
  Passes ((orderly ι rt signing).given more) i (Placed (batchKeys prepared) i) good
    (Failed (Unused more i) prepared before) body store

theorem placing_ask {α : Type} (i : ι) (prepared : List PreparedReport) (before : Store ι)
    (good : α → Store ι → Prop) (query : Statement) (next : Response query → Tx α) (store : Store ι)
    (step : ∀ now, Sequenced now → LedgerRely i store now → Allowed rt signing i query now →
      more i query now →
      Placed (batchKeys prepared) i query now ∧ ∀ response after supply left,
        respond i query now supply = some (response, after, left) →
          Placing rt signing more i prepared before good (next response) after) :
    Placing rt signing more i prepared before good (ask query >>= next) store :=
  fun now inv others pre => step now inv.2 others pre.1 pre.2

theorem placing_error {α : Type} (i : ι) (prepared : List PreparedReport) (before : Store ι)
    (good : α → Store ι → Prop) (error : PyError) (store : Store ι)
    (failed : Failed (Unused more i) prepared before error store) :
    Placing rt signing more i prepared before good (throw error) store :=
  fun now _ others => failed_stable (Unused more i) prepared before error store now others.rows failed

theorem placing_bind {α β : Type} (i : ι) (prepared : List PreparedReport) (before : Store ι)
    (mid : α → Store ι → Prop) (good : β → Store ι → Prop) (body : Tx α) (next : α → Tx β)
    (store : Store ι) (first : Placing rt signing more i prepared before mid body store)
    (second : ∀ value now, mid value now → Placing rt signing more i prepared before good (next value) now) :
    Placing rt signing more i prepared before good (body >>= next) store :=
  passes_bind ((orderly ι rt signing).given more) i _ _ store mid good
    (fun error store now _ others => failed_stable _ prepared before error store now others.rows) body
      next first fun value now _ => second value now

theorem placing_mono {α : Type} (i : ι) (prepared : List PreparedReport) (before : Store ι)
    (strong weak : α → Store ι → Prop) (body : Tx α) (store : Store ι)
    (implies : ∀ value now, strong value now → weak value now)
    (placing : Placing rt signing more i prepared before strong body store) :
    Placing rt signing more i prepared before weak body store :=
  passes_mono ((orderly ι rt signing).given more) i _ _ store weak strong _ body
    (fun value now _ => implies value now)
    (fun _ _ _ => id) placing

theorem placing_row {α : Type} (i : ι) (prepared done rest : List PreparedReport)
    (item : PreparedReport) (before : Store ι) (good : α → Store ι → Prop)
    (resolved appended : List Event) (next : Event → Tx α) (store : Store ι)
    (midway : InBatchLoop i prepared done before resolved appended store)
    (split : prepared = done ++ item :: rest)
    (unresolved : ∀ row ∈ resolved, row.businessKey ≠ item.request.businessKey)
    (onward : ∀ row now, row.businessKey = item.request.businessKey →
      row.contentFingerprint = item.fingerprint →
      InBatchLoop i prepared (done ++ [item]) before (resolved ++ [row]) (appended ++ [row]) now →
        Placing rt signing more i prepared before good (next row) now) :
    Placing rt signing more i prepared before good
      (newEvent rt (reportDraft item.request item.reportDigest item.fingerprint) >>= fun event =>
        flushEvent event >>= next) store := by
  rw [new_event_draws]
  refine placing_ask rt signing more i _ _ _ .uuidFactory _ store fun first _ others _ _ =>
    ⟨trivial, fun eventId _ _ _ answer => ?_⟩
  cases answer
  replace midway := in_batch_loop_stable i prepared done before resolved appended store first others midway
  refine placing_ask rt signing more i _ _ _ .clock _ first fun second _ others _ _ =>
    ⟨trivial, fun occurredAt _ _ _ answer => ?_⟩
  cases answer
  replace midway := in_batch_loop_stable i prepared done before resolved appended first second others midway
  refine placing_ask rt signing more i _ _ _ .nextval _ second fun third _ others _ _ =>
    ⟨trivial, fun sequence counted supply _ answer => ?_⟩
  replace midway := in_batch_loop_stable i prepared done before resolved appended second third others midway
  replace midway : InBatchLoop i prepared done before resolved appended counted := by
    cases answer
    exact in_batch_loop_counted i prepared done before resolved appended third _ _ midway
  clear answer
  refine placing_ask rt signing more i _ _ _ (.insertEvent _) _ counted fun last sequenced others
    allowed given => ?_
  replace midway := in_batch_loop_stable i prepared done before resolved appended counted last others midway
  refine ⟨in_batch_loop_placed i prepared done rest item before resolved appended last midway
    split unresolved _ rfl rfl,
    fun inserted final supply left answer => ?_⟩
  rw [respond] at answer
  split at answer
  · rename_i refused
    cases answer
    refine placing_error rt signing more i prepared before _ .integrityError last
      (.inr ⟨rfl, fun unused => ⟨item.request.businessKey, ?_, ?_, ?_⟩⟩)
    · rw [split]
      simp [batchKeys]
    · obtain ⟨row, seen | own, keyed⟩ :=
        refused_key rt signing i last _ sequenced allowed rfl (unused _ _ given) (by simpa using refused)
      · exact ⟨row, seen, keyed⟩
      · rw [midway.own] at own
        exact absurd keyed (unresolved row (midway.within row own))
    · intro row member keyed
      obtain ⟨other, inside, same⟩ := midway.read row member (by rw [keyed, split]; simp [batchKeys])
      exact unresolved other inside (same.trans keyed)
  · split at answer
    · cases answer
    · cases answer
      exact onward _ _ rfl rfl (in_batch_loop_inserted i prepared done item before resolved appended
          last _ rfl rfl midway)

theorem placing_items (i : ι) (prepared done items : List PreparedReport) (before : Store ι) (index : Nat)
    (resolved appended : List Event) (store : Store ι) (split : prepared = done ++ items)
    (midway : InBatchLoop i prepared done before resolved appended store) :
    Placing rt signing more i prepared before (fun pairs now => (∀ row ∈ resolved, Seen i row now) ∧
      Fulfilled i (batchKeys done) appended items pairs now)
        (insertItems rt index resolved appended items) store := by
  induction items generalizing done index resolved appended store with
  | nil =>
      intro now _ others
      replace midway := in_batch_loop_stable i prepared done before resolved appended store now others midway
      refine ⟨midway.seen, by rw [midway.own]; exact (List.append_nil _).symm, .nil,
        fun earlier row after split => ?_⟩
      simp at split
  | cons item rest ih =>
      have inside : item ∈ prepared := by simp [split]
      have onward : ∀ (known own : List Event) (event : Event) (created : Bool) (now : Store ι),
          InBatchLoop i prepared (done ++ [item]) before known (appended ++ own) now →
          (∀ row ∈ resolved, row ∈ known) → event ∈ known →
          own = createdRows [(event, created)] → event.businessKey = item.request.businessKey →
          event.contentFingerprint = item.fingerprint →
          (created = true → item.request.businessKey ∉ batchKeys done) →
          Placing rt signing more i prepared before (fun pairs now => (∀ row ∈ resolved, Seen i row now) ∧
            Fulfilled i (batchKeys done) appended (item :: rest) pairs now) (do
              let later ← insertItems rt (index + 1) known (appended ++ own) rest
              return (event, created) :: later) now := by
        intro known own event created now midway grows member made keyed matched unlisted
        refine placing_bind rt signing more i prepared before _ _ _ _ now
          (ih (done ++ [item]) (index + 1) known (appended ++ own) now (by simp [split]) midway) ?_
        rintro later final ⟨seen, fulfilled⟩ last _ around
        replace fulfilled := fulfilled_stable i _ _ rest later final last around fulfilled
        refine ⟨fun row old => seen_stable i row final last around (seen row (grows row old)), ?_,
          .cons ⟨?_, keyed, matched⟩ fulfilled.answers, ?_⟩
        · rw [fulfilled.own, made, List.append_assoc]
          cases created <;> rfl
        · exact seen_stable i event final last around (seen event member)
        · refine creates_first_cons _ event created later (by rw [keyed]; exact unlisted) ?_
          have first := fulfilled.first
          rw [keyed]
          simpa [batchKeys] using first
      unfold insertItems
      dsimp only
      split
      · rename_i existing found
        have member := List.mem_of_find?_eq_some found
        have keyed : existing.businessKey = item.request.businessKey := by simpa using List.find?_some found
        by_cases matched : existing.contentFingerprint = item.fingerprint
        · have again := in_batch_loop_found i prepared done item before resolved appended store existing
            member keyed midway
          rw [← List.append_nil appended] at again
          have rest := onward resolved [] existing false store again
            (fun _ => id) member rfl keyed matched (fun impossible => nomatch impossible)
          rw [List.append_nil] at rest
          rw [← matched, check_matches existing]
          exact rest
        · obtain ⟨error, checked, details, rfl, code⟩ := check_conflicts existing item.fingerprint matched
          rw [checked]
          refine placing_error rt signing more i prepared before _ _ store (.inl ⟨⟨_, rfl, code⟩, ?_⟩)
          exact in_batch_loop_differs i prepared done item before resolved appended store existing
            member keyed matched inside
            (fun other old => by rw [split]; exact List.mem_append_left _ old) midway
      · rename_i unresolved
        have absent : ∀ row ∈ resolved, row.businessKey ≠ item.request.businessKey := fun row member => by
          simpa using List.find?_eq_none.mp unresolved row member
        split
        · refine placing_row rt signing more i prepared done rest item before _ resolved
            appended _ store midway split absent
            fun row now keyed matched entered => ?_
          refine onward (resolved ++ [row]) [row] row true now entered (fun _ => List.mem_append_left _)
            (List.mem_append_right _ (List.mem_singleton_self _)) rfl keyed matched fun _ listed => ?_
          obtain ⟨other, old, same⟩ := List.mem_map.mp listed
          obtain ⟨found, member, named⟩ := midway.covered other old
          exact absent found member (named.trans same)
        · rename_i event found
          exact absurd (by simpa using List.find?_some found)
            (absent event (midway.within event (List.mem_of_find?_eq_some found)))

theorem placing_batch (i : ι) (prepared : List PreparedReport) (store : Store ι) (idle : Idle i store) :
    Placing rt signing more i prepared store (fun pairs now => Fulfilled i [] [] prepared pairs now)
      (insertReportBatch rt prepared) store := by
  refine placing_ask rt signing more i _ _ _ .lockShared _ store fun now _ others _ _ =>
    ⟨trivial, fun response locked supply left answer => ?_⟩
  have opened : locked.events = now.events ∧ (locked.transactions i).events = [] := by
    rw [respond] at answer
    split at answer <;> cases answer
    refine ⟨rfl, ?_⟩
    rw [update_same, others.own, idle]
    rfl
  have grows : ∀ row ∈ store.events.rows, row ∈ locked.events.rows := fun row member => by
    rw [opened.1]
    exact others.rows row member
  refine placing_ask rt signing more i _ _ _ (.selectByKeys (batchKeys prepared)) _ locked
      fun later _ around _ _ =>
    ⟨trivial, fun existing after supply left answer => ?_⟩
  cases answer
  have unwritten : (later.transactions i).events = [] := by
    rw [around.own]
    exact opened.2
  have visible : later.visible i = later.events := by
    rw [Store.visible, unwritten]
    rfl
  rw [visible]
  refine placing_mono rt signing more i prepared store _ _ _ later (fun _ _ => And.right)
    (placing_items rt signing more i prepared
      [] prepared store 0 _ [] later rfl ⟨unwritten, fun row member => ?_, ?_, ?_, ?_,
        fun row member asked => ?_⟩)
  · exact .inl (List.mem_of_mem_filter member)
  · exact fun row none => by cases none
  · exact fun item none => by cases none
  · exact fun row none => by cases none
  · exact ⟨row, List.mem_filter.mpr ⟨around.rows row (grows row member), by simpa using asked⟩, rfl⟩

section

variable {ρ : Type} (answer : List (Event × Bool) → ρ)

-- A commit ends the call with what was written, or writes nothing and goes on.
def Concluding (i : ι) (prepared : List PreparedReport) (left : Program Sql ρ) (store : Store ι) : Prop :=
  (store.transactions i).events = [] ∧ (∀ pairs, left ≠ .done (answer pairs)) ∨
    ∃ pairs, left = .done (answer pairs) ∧ Fulfilled i [] [] prepared pairs store

def BatchStep (i : ι) (prepared : List PreparedReport) (query : Statement)
    (resume : Response query → Program Sql ρ) (store : Store ι) : Prop :=
  match query, resume with
  | .commit, resume => Concluding answer i prepared (resume ()) store
  | .rollback, resume => ∀ pairs, resume () ≠ .done (answer pairs)
  | query, resume => Placed (batchKeys prepared) i query store ∧
      ∀ response pairs, resume response ≠ .done (answer pairs)

omit [DecidableEq ι] [Fintype ι] in
theorem placed_batch_step (i : ι) (prepared : List PreparedReport) (query : Statement)
    (resume : Response query → Program Sql ρ) (store : Store ι)
    (placed : Placed (batchKeys prepared) i query store)
    (unanswered : ∀ response pairs, resume response ≠ .done (answer pairs)) :
    BatchStep answer i prepared query resume store := by
  cases query <;> first | exact ⟨placed, unanswered⟩ | exact placed.elim

omit [DecidableEq ι] [Fintype ι] in
theorem bind_unanswered {τ : Type} (wider : List (Event × Bool) → τ) (next : ρ → Program Sql τ)
    (only : ∀ value pairs, next value = .done (wider pairs) → ∃ others, value = answer others)
    (left : Program Sql ρ) (unanswered : ∀ pairs, left ≠ .done (answer pairs))
    (pairs : List (Event × Bool)) : left >>= next ≠ .done (wider pairs) := by
  intro ended
  cases left with
  | call query onward => cases ended
  | done value =>
      obtain ⟨others, same⟩ := only value pairs ended
      exact unanswered others (by rw [same])

omit [DecidableEq ι] [Fintype ι] in
theorem batch_step_bind {τ : Type} (wider : List (Event × Bool) → τ) (next : ρ → Program Sql τ) (i : ι)
    (prepared : List PreparedReport) (ends : ∀ pairs, next (answer pairs) = .done (wider pairs))
    (only : ∀ value pairs, next value = .done (wider pairs) → ∃ others, value = answer others)
    (query : Statement) (resume : Response query → Program Sql ρ) (store : Store ι)
    (going : BatchStep answer i prepared query resume store) :
    BatchStep wider i prepared query (fun response => resume response >>= next) store := by
  cases query with
  | commit =>
      rcases going with ⟨nothing, goesOn⟩ | ⟨pairs, done, fulfilled⟩
      · exact .inl ⟨nothing, bind_unanswered answer wider next only (resume ()) goesOn⟩
      · refine .inr ⟨pairs, ?_, fulfilled⟩
        beta_reduce
        rw [done]
        exact ends pairs
  | rollback => exact bind_unanswered answer wider next only (resume ()) going
  | _ =>
      exact ⟨going.1, fun response => bind_unanswered answer wider next only (resume response)
        (going.2 response)⟩

end

-- Why a call gives up that has lost so many keys.
def GaveUp (fresh : Prop) (prepared : List PreparedReport) (start : Store ι) (count : Nat)
    (error : PyError) (now : Store ι) : Prop :=
  Conflict error ∧ (Collides prepared ∨ Taken prepared now) ∨ error = .integrityError ∧
    (fresh → ∃ lost : List String, lost.length = count ∧ lost.Nodup ∧
      ∀ key ∈ lost, Outrun (batchKeys prepared) start now key)

omit [DecidableEq ι] [Fintype ι] in
theorem gave_up_stable (fresh : Prop) (prepared : List PreparedReport) (start : Store ι) (count : Nat)
    (error : PyError) (store now : Store ι) (grows : ∀ row ∈ store.events.rows, row ∈ now.events.rows)
    (gaveUp : GaveUp fresh prepared start count error store) :
    GaveUp fresh prepared start count error now := by
  rcases gaveUp with ⟨conflict, reason⟩ | ⟨refused, lost⟩
  · exact .inl ⟨conflict, reason.imp_right (taken_stable prepared store now grows)⟩
  · refine .inr ⟨refused, fun premise => ?_⟩
    obtain ⟨lost, counted, distinct, each⟩ := lost premise
    exact ⟨lost, counted, distinct, fun key member => outrun_stable _ start store now key grows
      (each key member)⟩

theorem ensures_rows {ρ : Type} (i : ι) (program : Program Sql ρ) (store : Store ι) :
    Ensures ((orderly ι rt signing).given more) i
      (fun _ now => ∀ row ∈ store.events.rows, row ∈ now.events.rows) program store := by
  have from_then : ∀ then_ : Store ι, (∀ row ∈ store.events.rows, row ∈ then_.events.rows) →
      Ensures ((orderly ι rt signing).given more) i
        (fun _ now => ∀ row ∈ store.events.rows, row ∈ now.events.rows) program then_ := by
    induction program with
    | done value => exact fun then_ grown now _ others row member => others.rows row (grown row member)
    | call query resume ih =>
        intro then_ grown now inv others _ response after before left answer
        refine ih response after fun row member => ?_
        exact (respond_grows rt signing i query now before response after left inv.1 answer).rows row
          (others.rows row (grown row member))
  exact from_then store fun _ => id

theorem batch_step_transaction (i : ι) (prepared : List PreparedReport) (store : Store ι)
    (idle : Idle i store) :
    Through ((orderly ι rt signing).given more) i (BatchStep Except.ok i prepared)
      (fun outcome now => Idle i now ∧
      ∀ error, outcome = .error error → Failed (Unused more i) prepared store error now)
      (transaction (insertReportBatch rt prepared)).run store := by
  refine through_bind ((orderly ι rt signing).given more) i
    (fun query _ now => Placed (batchKeys prepared) i query now)
    (Post (fun pairs now => Fulfilled i [] [] prepared pairs now) (Failed (Unused more i) prepared store)) _ _
    (insertReportBatch rt prepared).run _ store (fun query resume now _ placed => ?_)
    (placing_batch rt signing more i prepared store idle) fun outcome now _ found => ?_
  · refine placed_batch_step Except.ok i prepared query _ now placed fun response pairs => ?_
    -- after the body a commit or a rollback is still to come
    cases resume response with
    | call query onward => exact fun ended => nomatch ended
    | done outcome => cases outcome <;> exact fun ended => nomatch ended
  cases outcome with
  | ok pairs =>
      intro later _ others _
      refine ⟨.inr ⟨pairs, rfl, fulfilled_stable i _ _ prepared pairs now later others found⟩,
        fun response after _ _ answer => ?_⟩
      cases answer
      exact fun last _ around =>
        ⟨idle_stable i _ last around (commit_idle i later), fun error impossible => nomatch impossible⟩
  | error error =>
      intro later _ others _
      refine ⟨fun pairs ended => (nomatch ended), fun response after _ _ answer => ?_⟩
      cases answer
      refine fun last _ around => ⟨idle_stable i _ last around (rollback_idle i later), ?_⟩
      rintro _ ⟨⟩
      refine failed_stable _ prepared store error now last (fun row member => ?_) found
      exact around.rows row (others.rows row member)

omit [DecidableEq ι] [Fintype ι] in
theorem outrun_again (fresh : Prop) (prepared : List PreparedReport) (start before now : Store ι)
    (count : Nat) (grows : ∀ row ∈ start.events.rows, row ∈ before.events.rows)
    (onward : ∀ row ∈ before.events.rows, row ∈ now.events.rows)
    (earlier : fresh → ∃ lost : List String, lost.length = count ∧ lost.Nodup ∧
      ∀ key ∈ lost, Outrun (batchKeys prepared) start before key)
    (failed : fresh → ∃ key, Outrun (batchKeys prepared) before now key) (premise : fresh) :
    ∃ lost : List String, lost.length = count + 1 ∧ lost.Nodup ∧
    ∀ key ∈ lost, Outrun (batchKeys prepared) start now key := by
  obtain ⟨lost, counted, distinct, each⟩ := earlier premise
  obtain ⟨key, asked, committed, absent⟩ := failed premise
  refine ⟨key :: lost, by simp [counted], List.nodup_cons.mpr ⟨fun listed => ?_, distinct⟩,
    fun other member => ?_⟩
  · obtain ⟨row, member, keyed⟩ := (each key listed).committed
    exact absent row member keyed
  · rcases List.mem_cons.mp member with rfl | old
    · exact ⟨asked, committed, fun row member => absent row (grows row member)⟩
    · exact outrun_stable _ start before now other onward (each other old)

theorem conflicting_item_taken (existing : List Event) (index : Nat) (items : List PreparedReport)
    (error : PyError) (found : conflictingItem existing index items = some error) :
    Conflict error ∧ ∃ item ∈ items, ∃ row ∈ existing,
      row.businessKey = item.request.businessKey ∧ row.contentFingerprint ≠ item.fingerprint := by
  induction items generalizing index with
  | nil => cases found
  | cons item rest ih =>
      have later := fun found => ih (index + 1) found
      rw [conflictingItem] at found
      split at found
      · obtain ⟨conflict, other, inside, differs⟩ := later found
        exact ⟨conflict, other, List.mem_cons_of_mem _ inside, differs⟩
      · rename_i row held
        split at found
        · rename_i differs
          cases found
          exact ⟨⟨_, rfl, rfl⟩, item, List.mem_cons_self, row,
            List.mem_of_find?_eq_some held, by simpa using List.find?_some held, differs⟩
        · obtain ⟨conflict, other, inside, differs⟩ := later found
          exact ⟨conflict, other, List.mem_cons_of_mem _ inside, differs⟩

-- What onIntegrityError does with an outcome.
def recovery {α : Type} (handler : Tx α) : Py α → Program Sql (Py α)
  | .error .integrityError => do
      let _ ← Program.statement (S := Sql) Statement.rollback
      handler.run
  | outcome => return outcome

omit [DecidableEq ι] [Fintype ι] in
theorem recovering_run {α : Type} (body handler : Tx α) :
    (onIntegrityError body handler).run = body.run >>= recovery handler := by
  refine congrArg (body.run >>= ·) (funext fun outcome => ?_)
  rcases outcome with error | value
  · cases error <;> rfl
  · rfl

omit [DecidableEq ι] [Fintype ι] in
theorem conflict_read_run {α : Type} (prepared : List PreparedReport) (next : Option PyError → Tx α) :
    (committedBatchConflict prepared >>= next).run = .call (.selectByKeys (batchKeys prepared)) fun rows =>
      .call .commit fun _ => (next (conflictingItem rows 0 prepared)).run := rfl

theorem batch_step_recovering (i : ι) (prepared : List PreparedReport) (start store : Store ι)
    (count last : Nat) (idle : Idle i store)
    (grows : ∀ row ∈ start.events.rows, row ∈ store.events.rows)
    (earlier : Unused more i → ∃ lost : List String, lost.length = count ∧ lost.Nodup ∧
      ∀ key ∈ lost, Outrun (batchKeys prepared) start store key)
    (next : Option PyError → Tx (List (Event × Bool)))
    (present : ∀ conflict, next (some conflict) = throw conflict)
    (unanswered : ∀ pairs, (next none).run ≠ .done (.ok pairs))
    (onward : ∀ now, Idle i now → (∀ row ∈ start.events.rows, row ∈ now.events.rows) →
      (Unused more i → ∃ lost : List String, lost.length = count + 1 ∧ lost.Nodup ∧
        ∀ key ∈ lost, Outrun (batchKeys prepared) start now key) →
      Through ((orderly ι rt signing).given more) i (BatchStep Except.ok i prepared)
        (fun outcome now => Idle i now ∧ ∀ error, outcome = .error error →
        GaveUp (Unused more i) prepared start last error now) (next none).run now) :
    Through ((orderly ι rt signing).given more) i (BatchStep Except.ok i prepared)
      (fun outcome now => Idle i now ∧ ∀ error, outcome = .error error →
      GaveUp (Unused more i) prepared start last error now)
      (onIntegrityError (transaction (insertReportBatch rt prepared))
        (committedBatchConflict prepared >>= next)).run store := by
  rw [recovering_run]
  refine through_bind ((orderly ι rt signing).given more) i (BatchStep Except.ok i prepared) _ _ _
    (transaction (insertReportBatch rt prepared)).run _ store (fun query resume now _ going => ?_)
    (through_also ((orderly ι rt signing).given more) i (BatchStep Except.ok i prepared) _ _ _ store
      (batch_step_transaction rt signing more i prepared store idle) (ensures_rows rt signing more i _ store))
    fun outcome now _ found => ?_
  · refine batch_step_bind Except.ok Except.ok
      (recovery (committedBatchConflict prepared >>= next)) i prepared (fun pairs => rfl)
      (fun value pairs ended => ?_) query resume now going
    cases value with
    | ok others => exact ⟨others, rfl⟩
    | error error => cases error <;> cases ended
  cases outcome with
  | ok pairs =>
      exact fun later _ others =>
        ⟨idle_stable i now later others found.1.1, fun error impossible => nomatch impossible⟩
  | error error =>
      rcases found.1.2 error rfl with ⟨⟨details, rfl, code⟩, reason⟩ | ⟨rfl, lost⟩
      · intro later _ others
        refine ⟨idle_stable i now later others found.1.1, ?_⟩
        rintro _ ⟨⟩
        exact .inl ⟨⟨details, rfl, code⟩, reason.imp_right (taken_stable prepared now later others.rows)⟩
      · -- rollback, then one read in a transaction that ends at once
        change Through _ _ _ _ (Program.call (S := Sql) Statement.rollback fun _ =>
            (committedBatchConflict prepared >>= next).run) now
        rw [conflict_read_run]
        intro rolled _ others _
        refine ⟨fun pairs ended => (nomatch ended), fun _ after _ _ answer => ?_⟩
        cases answer
        intro read _ around _
        refine ⟨⟨trivial, fun rows pairs ended => (nomatch ended)⟩, fun rows after _ _ answer => ?_⟩
        cases answer
        have idleRead : Idle i read := idle_stable i _ read around (rollback_idle i rolled)
        rw [idle_visible i read idleRead]
        intro ending _ beside _
        have idleEnding := idle_stable i read ending beside idleRead
        have empty : (ending.transactions i).events = [] := by rw [idleEnding]; rfl
        have events : (ending.commit i).events = ending.events := idle_visible i ending idleEnding
        have onward_rows : ∀ row ∈ now.events.rows, row ∈ ending.events.rows := fun row member =>
          beside.rows row (around.rows row (others.rows row member))
        refine ⟨.inl ⟨empty, fun pairs ended => ?_⟩, fun _ after _ _ answer => ?_⟩
        · cases held : conflictingItem (read.events.byKeys (batchKeys prepared)) 0 prepared with
          | some conflict =>
              rw [held, present] at ended
              cases ended
          | none =>
              rw [held] at ended
              exact unanswered pairs ended
        · cases answer
          cases held : conflictingItem (read.events.byKeys (batchKeys prepared)) 0 prepared with
          | some conflict =>
              rw [present]
              intro final _ last
              refine ⟨idle_stable i _ final last (commit_idle i ending), ?_⟩
              rintro _ ⟨⟩
              obtain ⟨code, item, inside, row, member, differs⟩ :=
                conflicting_item_taken _ 0 prepared conflict held
              refine .inl ⟨code, .inr ⟨item, inside, row, last.rows row ?_, differs⟩⟩
              rw [events]
              exact beside.rows row (List.mem_of_mem_filter member)
          | none =>
              refine onward (ending.commit i) (commit_idle i ending) (fun row member => ?_) fun premise => ?_
              · rw [events]
                exact onward_rows row (found.2 row (grows row member))
              · refine outrun_again _ prepared start store (ending.commit i) count grows
                  (fun row member => ?_) earlier (fun premise => ?_) premise
                · rw [events]
                  exact onward_rows row (found.2 row member)
                · obtain ⟨key, lost⟩ := lost premise
                  refine ⟨key, outrun_stable _ store now _ key (fun row member => ?_) lost⟩
                  rw [events]
                  exact onward_rows row member

omit [DecidableEq ι] [Fintype ι] in
theorem attempt_unanswered (prepared : List PreparedReport) (left : Nat) (pairs : List (Event × Bool)) :
    (attemptBatch rt prepared left).run ≠ .done (.ok pairs) := by
  obtain ⟨otherwise, shape⟩ := attempt_shape rt prepared left
  rw [shape]
  intro ended
  cases ended

theorem batch_step_attempts (i : ι) (prepared : List PreparedReport) (start store : Store ι)
    (count left : Nat) (idle : Idle i store)
    (grows : ∀ row ∈ start.events.rows, row ∈ store.events.rows)
    (earlier : Unused more i → ∃ lost : List String, lost.length = count ∧ lost.Nodup ∧
      ∀ key ∈ lost, Outrun (batchKeys prepared) start store key) :
    Through ((orderly ι rt signing).given more) i (BatchStep Except.ok i prepared)
      (fun outcome now => Idle i now ∧ ∀ error, outcome = .error error →
      GaveUp (Unused more i) prepared start (count + left + 1) error now)
        (attemptBatch rt prepared left).run store := by
  induction left generalizing count store with
  | zero =>
      refine batch_step_recovering rt signing more i prepared start store count _ idle grows
        earlier _ (fun _ => rfl) ?_
        fun now again _ lost => ?_
      · intro pairs ended
        cases ended
      · intro later _ others
        refine ⟨idle_stable i now later others again, ?_⟩
        rintro _ ⟨⟩
        exact gave_up_stable _ prepared start _ _ now later others.rows (.inr ⟨rfl, lost⟩)
  | succ left ih =>
      refine batch_step_recovering rt signing more i prepared start store count _ idle grows
        earlier _ (fun _ => rfl)
        (attempt_unanswered rt prepared left) fun now again grown lost => ?_
      have rest := ih now (count + 1) again grown lost
      rw [show count + 1 + left + 1 = count + (left + 1) + 1 by omega] at rest
      exact rest

omit [DecidableEq ι] [Fintype ι] in
theorem batch_collision_collides (index : Nat) (firstIndex : List (Nat × PreparedReport))
    (items : List PreparedReport) (error : PyError)
    (collides : batchCollision index firstIndex items = some error) :
    ∃ first ∈ firstIndex.map Prod.snd ++ items, ∃ item ∈ items,
      first.request.businessKey = item.request.businessKey ∧ first.fingerprint ≠ item.fingerprint := by
  induction items generalizing index firstIndex with
  | nil => cases collides
  | cons item rest ih =>
      rw [batchCollision] at collides
      split at collides
      · obtain ⟨first, known, other, later, apart⟩ := ih _ _ collides
        exact ⟨first, by simpa using known, other, List.mem_cons_of_mem _ later, apart⟩
      · rename_i prior first found
        have listed : first ∈ firstIndex.map Prod.snd :=
          List.mem_map_of_mem (f := Prod.snd) (List.mem_of_find?_eq_some found)
        split at collides
        · rename_i differs
          exact ⟨first, List.mem_append_left _ listed, item,
            List.mem_cons_self, by simpa using List.find?_some found, differs⟩
        · obtain ⟨first, known, other, later, apart⟩ := ih _ _ collides
          refine ⟨first, ?_, other, List.mem_cons_of_mem _ later, apart⟩
          rcases List.mem_append.mp known with old | new
          · exact List.mem_append_left _ old
          · exact List.mem_append_right _ (List.mem_cons_of_mem _ new)

-- Why a call with a batch raises.
def Raises (fresh : Prop) (requests : List SubmitReport) (start : Store ι) (error : PyError)
    (now : Store ι) : Prop :=
  prepareBatch rt 0 requests = .error error ∨ ∃ prepared, prepareBatch rt 0 requests = .ok prepared ∧
    GaveUp fresh prepared start batchInsertAttempts error now

theorem batch_prepared (requests : List SubmitReport) (prepared : List PreparedReport)
    (made : prepareBatch rt 0 requests = .ok prepared) :
    appendReportBatch rt requests =
      (batchCollision 0 [] prepared).elim (attemptBatch rt prepared (batchInsertAttempts - 1)) throw := by
  rw [appendReportBatch, made, lift_ok_bind]
  cases batchCollision 0 [] prepared with
  | none => rfl
  | some conflict => rfl

def batchAnswer (pairs : List (Event × Bool)) : Py Outcome := .ok (.batch pairs)

def answerBatch : Py (List (Event × Bool)) → Program Sql (Py Outcome)
  | .ok pairs => .done (batchAnswer pairs)
  | .error error => .done (.error error)

omit [DecidableEq ι] [Fintype ι] in
theorem batch_run (requests : List SubmitReport) :
    ((Call.batch requests).program rt).run = (appendReportBatch rt requests).run >>= answerBatch := by
  refine congrArg ((appendReportBatch rt requests).run >>= ·) (funext fun outcome => ?_)
  cases outcome <;> rfl

theorem batch_step_call (i : ι) (requests : List SubmitReport) (store : Store ι) (idle : Idle i store) :
    Through ((orderly ι rt signing).given more) i
      (fun query resume now => ∃ prepared, prepareBatch rt 0 requests = .ok prepared ∧
      BatchStep batchAnswer i prepared query resume now)
        (fun outcome now => Idle i now ∧ ∀ error, outcome = .error error →
        Raises rt (Unused more i) requests store error now) ((Call.batch requests).program rt).run store := by
  rw [batch_run]
  cases made : prepareBatch rt 0 requests with
  | error error =>
      rw [appendReportBatch, made]
      intro now _ others
      refine ⟨idle_stable i store now others idle, ?_⟩
      rintro _ ⟨⟩
      exact .inl made
  | ok prepared =>
      rw [batch_prepared rt requests prepared made]
      cases collision : batchCollision 0 [] prepared with
      | some conflict =>
          intro now _ others
          refine ⟨idle_stable i store now others idle, ?_⟩
          rintro _ ⟨⟩
          obtain ⟨first, known, item, inside, apart⟩ :=
            batch_collision_collides 0 [] prepared conflict collision
          exact .inr ⟨prepared, made,
            .inl ⟨batch_collision_conflict 0 [] prepared conflict collision,
              .inl ⟨first, known, item, inside, apart⟩⟩⟩
      | none =>
          have attempts :=
            batch_step_attempts rt signing more i prepared store store 0 (batchInsertAttempts - 1) idle
              (fun _ => id)
            fun _ => ⟨[], rfl, List.nodup_nil, fun key none => by cases none⟩
          rw [show 0 + (batchInsertAttempts - 1) + 1 = batchInsertAttempts from rfl] at attempts
          refine through_bind ((orderly ι rt signing).given more) i (BatchStep Except.ok i prepared)
            (fun outcome now => Idle i now ∧ ∀ error, outcome = .error error →
              GaveUp (Unused more i) prepared store batchInsertAttempts error now)
                _ _ (attemptBatch rt prepared (batchInsertAttempts - 1)).run _ store
            (fun query resume now _ going =>
                ⟨prepared, rfl, batch_step_bind Except.ok batchAnswer answerBatch i prepared
              (fun pairs => rfl)
              (fun outcome pairs ended => ?_) query resume now going⟩) attempts fun outcome now _ found => ?_
          · cases outcome with
            | ok others => exact ⟨others, rfl⟩
            | error error => cases ended
          · cases outcome with
            | ok pairs =>
                exact fun later _ others =>
                  ⟨idle_stable i now later others found.1, fun error impossible => nomatch impossible⟩
            | error error =>
                intro later _ others
                refine ⟨idle_stable i now later others found.1, ?_⟩
                rintro _ ⟨⟩
                exact .inr ⟨prepared, made,
                  gave_up_stable _ prepared store _ error now later others.rows (found.2 error rfl)⟩

end

end CalibrationLedger
