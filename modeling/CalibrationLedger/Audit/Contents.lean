import CalibrationLedger.Audit.Boundaries
import CalibrationLedger.Audit.Naming
import CalibrationLedger.Rereading

set_option autoImplicit false

-- What stands in the archive of a package: a receipt an event, each readable and
-- acceptable by itself, and a manifest that lists them.
namespace CalibrationLedger

open JsonText Digest HashTree Interleaving

section

variable (rt : Runtime)

theorem shown_event_encodable (event : Event) : encodable (.obj (dict (event.shown rt))) := by
  apply dict_encodable
  simp [Event.shown, Event.commitment, commitmentMembers, Event.fields, string, optional_str,
    optional_encodable, encodable, pyStr,
    text_scalars, utc_text_scalars]

theorem shown_checkpoint_encodable (checkpoint : Checkpoint) :
    encodable (.obj (dict (checkpoint.shown rt))) := by
  apply dict_encodable
  simp [Checkpoint.shown, Checkpoint.payload, payloadMembers, Checkpoint.fields, string, optional_str,
    optional_encodable, encodable,
    pyStr, text_scalars, utc_text_scalars]

theorem strings_encodable (contents : List String) : encodable (.arr (contents.map string)) := by
  refine (items_encodable_iff _).mpr fun item inside => ?_
  obtain ⟨content, _, rfl⟩ := List.mem_map.mp inside
  exact text_scalars content

theorem step_encodable (step : InclusionStep) : encodable (stepView step) := by
  apply dict_encodable
  simp [string, encodable, text_scalars]

theorem preceded_encodable (keyring : Keyring) (checkpoint : Checkpoint) (leaves : List Bytes)
    (consistency : Json) (preceded : Preceded rt keyring checkpoint leaves consistency) :
    encodable consistency := by
  rw [Preceded] at preceded
  split at preceded
  · rw [preceded.2]
    trivial
  · obtain ⟨previous, hashes, _, _, _, _, _, rfl⟩ := preceded
    apply dict_encodable
    simp only [List.forall_mem_cons, List.not_mem_nil, false_imp_iff, implies_true, and_true]
    refine ⟨shown_checkpoint_encodable rt previous, text_scalars _, trivial, trivial, ?_⟩
    simpa [Function.comp_def] using strings_encodable (hashes.map hex)

theorem receipt_encodable (table : EventTable) (checkpoint : Checkpoint) (consistency : Json)
    (event : Event) (index : Nat) (proper : encodable consistency) :
    encodable (.obj (receiptAt rt table checkpoint consistency event index)) := by
  apply dict_encodable
  simp only [List.forall_mem_cons, List.not_mem_nil, false_imp_iff, implies_true, and_true]
  refine ⟨shown_event_encodable rt event, text_scalars _,
    shown_checkpoint_encodable rt checkpoint, ?_, proper⟩
  apply dict_encodable
  simp only [List.forall_mem_cons, List.not_mem_nil, false_imp_iff, implies_true, and_true]
  refine ⟨trivial, trivial, (items_encodable_iff _).mpr fun item inside => ?_⟩
  obtain ⟨step, _, rfl⟩ := List.mem_map.mp inside
  exact step_encodable step

-- json.loads of UTF-8 bytes.
def ReadsBack (loads : Text → Option Json) (data : Bytes) (value : Json) : Prop :=
  ∃ content, encodeUtf8 content = .ok data ∧ loads content = some value

variable (loads : Text → Option Json) (undoes : Undoes rt loads)

include undoes

theorem canonical_reads_back (value : Json) (accepted : encodable value) (distinct : Distinct value) :
    ∃ data, canonicalJson rt value = .ok data ∧ ReadsBack loads data (sortKeys value) := by
  obtain ⟨data, written⟩ := canonical_json_accepts rt value accepted
  have encoded := written
  rw [canonicalJson, dumps, encodable_finite value accepted] at encoded
  exact ⟨data, written, _, encoded, undoes _ (sort_keys_distinct value distinct)⟩

theorem object_reads_back (members : Dict) (accepted : encodable (.obj members))
    (distinct : Distinct (.obj members)) :
    ∃ data others, canonicalJson rt (.obj members) = .ok data ∧ ReadsBack loads data (.obj others) ∧
      Reordered (.obj members) (.obj others) := by
  obtain ⟨data, written, back⟩ := canonical_reads_back rt loads undoes _ accepted distinct
  exact ⟨data, _, written, back, reordered_sort (.obj members)⟩

end

section

variable (rt : Runtime) (loads : Text → Option Json) (ledger : Ledger) (checkpoint : Checkpoint)
  (service reader : Keyring)

-- The file of an event's receipt.
structure ReceiptFile (event : Event) (file : ZipMember) : Prop where
  member : file = zipFile (receiptPath event.sequence) file.data
  receipt : ∃ receipt parsed, buildReceiptAtCheckpoint rt ledger event checkpoint service = .ok receipt ∧
    ReadsBack loads file.data (.obj parsed) ∧ Reordered (.obj receipt) (.obj parsed) ∧
    verifyReceipt rt parsed reader = .ok ⟨true, true, some (text checkpoint.checkpointId.toText)⟩

-- How a manifest lists a file.
def ListsFile (file : ZipMember) (item : Json) : Prop := ∃ fields, item = .obj fields ∧
  getItem "path" fields = string file.name ∧ getItem "sha256" fields = string (sha256Hex rt file.data)

structure ManifestFile (receipts : List ZipMember) (file : ZipMember) : Prop where
  member : file = zipFile "manifest.json" file.data
  manifest : ∃ manifest listed, ReadsBack loads file.data (.obj manifest) ∧
    getItem "files" manifest = .arr listed ∧
    List.Forall₂ (ListsFile rt) receipts listed ∧ getItem "event_count" manifest = .int receipts.length

-- What the archive of an instrument holds beside its directory entry.
structure CompleteArchive (instrumentId : String) (receipts : List ZipMember) (manifest : ZipMember) :
    Prop where
  filed : List.Forall₂ (ReceiptFile rt loads ledger checkpoint service reader)
    (ledger.instrumentEvents instrumentId checkpoint.lastEventSequence) receipts
  distinct : (receipts.map ZipMember.name).Nodup
  ascending : (receipts.map ZipMember.name).Pairwise fun a b => a < b
  agrees : ∀ a ∈ ledger.instrumentEvents instrumentId checkpoint.lastEventSequence,
    ∀ b ∈ ledger.instrumentEvents instrumentId checkpoint.lastEventSequence,
      a.sequence < b.sequence ↔ receiptPath a.sequence < receiptPath b.sequence
  manifest : ManifestFile rt loads receipts manifest

end

section

variable (rt : Runtime) (loads : Text → Option Json) (undoes : Undoes rt loads) (checkpoint : Checkpoint)

-- How buildManifest lists a file.
def listing (file : String × Bytes) : Json :=
  .obj (dict [("path", string file.1), ("sha256", string (sha256Hex rt file.2))])

theorem listing_reordered (file : String × Bytes) (other : Json) (same : Reordered (listing rt file) other) :
    ListsFile rt (zipFile file.1 file.2) other := by
  have twin := reordered_twin _ (by simp) (by simp [string, plain]) other same
  obtain ⟨fields, rfl⟩ := reordered_object _ other same
  have item := fun key => twin_item key _ _ twin
  simp only [dictOf, get_item_dict] at item
  exact ⟨fields, rfl, item "path", item "sha256"⟩

def manifestMembers (bundle : PackageBundle) (files : List (String × Bytes)) : List (String × Json) := [
  ("schema_version", .int 1),
  ("package_id", string bundle.packageId),
  ("idempotency_key", string bundle.idempotencyKey),
  ("instrument_id", string bundle.instrumentId),
  ("boundary", .obj (dict [
    ("checkpoint", .obj (dict (checkpoint.shown rt))),
    ("leaf_count", .int checkpoint.leafCount),
    ("last_event_sequence", .int checkpoint.lastEventSequence),
    ("root_hash", string checkpoint.rootHash)])),
  ("event_count", .int bundle.entries.length),
  ("files", .arr (files.map (listing rt)))]

variable (bundle : PackageBundle) (files : List (String × Bytes))

theorem manifest_built (view : bundle.checkpoint = dict (checkpoint.shown rt)) :
    buildManifest bundle (files.map fun file => (file.1, sha256Hex rt file.2)) =
      .ok (dict (manifestMembers rt checkpoint bundle files)) := by
  have item := fun key value found => (shown_item rt checkpoint key value found).1
  rw [buildManifest, view, item "leaf_count" _ rfl, item "last_event_sequence" _ rfl,
    item "root_hash" _ rfl, List.map_map]
  rfl

theorem manifest_encodable : encodable (.obj (dict (manifestMembers rt checkpoint bundle files))) := by
  apply dict_encodable
  simp only [manifestMembers, List.forall_mem_cons, List.not_mem_nil, false_imp_iff, implies_true, and_true]
  refine ⟨trivial, text_scalars _, text_scalars _, text_scalars _, ?_, trivial,
    (items_encodable_iff _).mpr fun item inside => ?_⟩
  · apply dict_encodable
    simp only [List.forall_mem_cons, List.not_mem_nil, false_imp_iff, implies_true, and_true]
    exact ⟨shown_checkpoint_encodable rt checkpoint, trivial, trivial, text_scalars _⟩
  · obtain ⟨file, _, rfl⟩ := List.mem_map.mp inside
    apply dict_encodable
    simp [string, encodable, text_scalars]

theorem manifest_keys : ((manifestMembers rt checkpoint bundle files).map Prod.fst).Nodup := by
  simp [manifestMembers]

theorem manifest_distinct : Distinct (.obj (dict (manifestMembers rt checkpoint bundle files))) := by
  refine dict_distinct _ (manifest_keys rt checkpoint bundle files) ?_
  simp only [manifestMembers, List.forall_mem_cons, List.not_mem_nil, false_imp_iff, implies_true, and_true]
  refine ⟨trivial, trivial, trivial, trivial, ?_, trivial, (items_distinct_iff _).mpr fun item inside => ?_⟩
  · refine dict_distinct _ (by simp) ?_
    simp only [List.forall_mem_cons, List.not_mem_nil, false_imp_iff, implies_true, and_true]
    exact ⟨shown_checkpoint_distinct rt checkpoint, trivial, trivial, trivial⟩
  · obtain ⟨file, _, rfl⟩ := List.mem_map.mp inside
    exact dict_distinct _ (by simp) (by simp [string, Distinct])

include undoes

theorem manifest_filed (counted : bundle.entries.length = files.length) :
    ∃ data, canonicalJson rt (.obj (dict (manifestMembers rt checkpoint bundle files))) = .ok data ∧
      ManifestFile rt loads (files.map fun file => zipFile file.1 file.2) (zipFile "manifest.json" data) := by
  obtain ⟨data, manifest, written, back, reordered⟩ := object_reads_back rt loads undoes _
    (manifest_encodable rt checkpoint bundle files) (manifest_distinct rt checkpoint bundle files)
  have item := fun (r : Json → Json → Prop) key value =>
    reordered_alongside _ (manifest_keys rt checkpoint bundle files) manifest reordered r key value
  obtain ⟨_, _, _, found, listed, rfl, lists⟩ := item (fun _ right => ∃ listed, right = .arr listed ∧
    List.Forall₂ (ListsFile rt) (files.map fun file => zipFile file.1 file.2) listed)
      "files" _ rfl fun other same => by
      obtain ⟨listed, rfl, items⟩ := reordered_list _ other same
      rw [List.forall₂_map_left_iff] at items
      exact ⟨listed, rfl,
        List.forall₂_map_left_iff.mpr (items.imp fun file item => listing_reordered rt file item)⟩
  obtain ⟨_, _, first, second, rfl⟩ := item Eq "event_count" _ rfl fun other => reordered_plain _ other rfl
  have total : member (text "event_count") (dict (manifestMembers rt checkpoint bundle files)) =
      some (.int bundle.entries.length) := member_dict _ _
  rw [total] at first
  cases first
  exact ⟨data, written, rfl, manifest, listed, back, by rw [getItem, found, Option.getD_some], lists,
    by rw [getItem, second, Option.getD_some, counted, List.length_map]⟩

end

section

variable (rt : Runtime) (signing : Text → Bytes → Prop) {ι : Type} (store : Store ι)
  (sound : Sound rt signing store) (legible : Legible rt store.toLedger) (loads : Text → Option Json)
  (undoes : Undoes rt loads) (service reader : Keyring) (checkpoint : Checkpoint)
  (member : checkpoint ∈ store.checkpoints)
  (serves : HoldsKeys signing service (neededBy store.checkpoints checkpoint))
  (holds : HoldsKeys signing reader (neededBy store.checkpoints checkpoint))

include sound legible undoes member serves holds

theorem receipt_filed (event : Event) (inside : event ∈ store.events.upTo checkpoint.lastEventSequence) :
    ∃ receipt data, buildReceiptAtCheckpoint rt store.toLedger event checkpoint service = .ok receipt ∧
      receiptBytes rt ⟨event.sequence, receipt⟩ = .ok data ∧
      ReceiptFile rt loads store.toLedger checkpoint service reader event
        (zipFile (receiptPath event.sequence) data) := by
  obtain ⟨index, place⟩ := List.mem_iff_getElem?.mp inside
  obtain ⟨consistency, bundled, preceded⟩ :=
    sound_preceded rt signing store sound legible reader checkpoint member service serves holds
  have built := built_at_checkpoint rt signing store sound service checkpoint member
    (own_key signing service store.checkpoints checkpoint member serves) consistency event index bundled place
  have verified := receipt_verifies rt signing store sound legible reader checkpoint member
    (own_key signing reader store.checkpoints checkpoint member holds) consistency preceded event index place
  obtain ⟨data, parsed, written, back, reordered⟩ := object_reads_back rt loads undoes _
    (receipt_encodable rt store.events checkpoint consistency event index
      (preceded_encodable rt reader checkpoint _ consistency preceded))
    (receipt_distinct rt store.events checkpoint consistency event index
      (preceded_distinct rt reader checkpoint _ consistency preceded))
  refine ⟨_, data, built, written, rfl, _, parsed, built, back, reordered, ?_⟩
  rw [same_verified rt reader _ parsed
    (receipt_same rt event checkpoint index _ _ consistency parsed ?_ reordered)]
  · exact verified
  · intro other same
    rw [Preceded] at preceded
    split at preceded
    · obtain ⟨_, rfl⟩ := preceded
      rw [← reordered_plain .null other rfl same]
      exact .absent
    · obtain ⟨previous, hashes, _, _, _, _, _, rfl⟩ := preceded
      exact bundle_same rt checkpoint previous hashes other same

omit serves holds member legible undoes in
theorem instrument_event_covered (instrumentId : String) (event : Event)
    (inside : event ∈ store.toLedger.instrumentEvents instrumentId checkpoint.lastEventSequence) :
    event ∈ store.events.upTo checkpoint.lastEventSequence ∧ 0 < event.sequence := by
  have covered := List.mem_of_mem_filter inside
  exact ⟨covered, (sound.sequences event (.inl (List.mem_of_mem_filter covered))).1⟩

omit sound serves holds member legible undoes in
theorem instrument_events_sorted (instrumentId : String) :
    (store.toLedger.instrumentEvents instrumentId checkpoint.lastEventSequence).Pairwise fun a b =>
      a.sequence < b.sequence :=
  (store.events.sorted.filter _).filter _

theorem archive_built (package : AuditPackage)
    (bounded : store.toLedger.checkpoint package.checkpointId = some checkpoint)
    (covers : store.toLedger.instrumentEvents package.instrumentId checkpoint.lastEventSequence ≠ [])
    (narrow : ∀ event ∈ store.events.rows, event.sequence < 2 ^ 63) :
    ∃ bundle manifest receipts file, loadBundleAt rt store.toLedger package service = .ok bundle ∧
      archiveMembers rt bundle = .ok (receiptsDirectory :: receipts ++ [file], manifest) ∧
      bundle.entries.length = receipts.length ∧
      CompleteArchive rt loads store.toLedger checkpoint service reader package.instrumentId
        receipts file := by
  have receipt := receipt_filed rt signing store sound legible loads undoes service reader checkpoint
    member serves holds
  rw [load_bundle_at rt store.toLedger package checkpoint bounded service covers]
  have inside := instrument_event_covered rt signing store sound checkpoint package.instrumentId
  have sorted := instrument_events_sorted store checkpoint package.instrumentId
  generalize is : store.toLedger.instrumentEvents package.instrumentId checkpoint.lastEventSequence =
    events at covers inside sorted ⊢
  obtain ⟨entries, loaded, filed⟩ := map_along events events (fun event => do
      let receipt ← buildReceiptAtCheckpoint rt store.toLedger event checkpoint service
      return (⟨event.sequence, receipt⟩ : ReceiptEntry))
        (fun source event => source ∈ events ∧ source = event)
    (fun event entry => entry.sequence = event.sequence ∧ ∃ data, receiptBytes rt entry = .ok data ∧
      ReceiptFile rt loads store.toLedger checkpoint service reader event
        (zipFile (receiptPath event.sequence) data))
    (List.forall₂_same.mpr fun event inside => ⟨inside, rfl⟩) fun event _ ⟨listed, same⟩ => by
      subst same
      obtain ⟨receipt, data, built, written, file⟩ := receipt event (inside event listed).1
      exact ⟨⟨event.sequence, receipt⟩, (bind_ok _ _ _).mpr ⟨receipt, built, rfl⟩, rfl, data, written, file⟩
  obtain ⟨files, serialized, stored⟩ := map_along events entries (fun entry => do
      let data ← receiptBytes rt entry
      return (entry.name, data)) _ (fun event file => file.1 = receiptPath event.sequence ∧
      ReceiptFile rt loads store.toLedger checkpoint service reader event (zipFile file.1 file.2)) filed
          fun event entry ⟨same, data, written, file⟩ => by
      have name : entry.name = receiptPath event.sequence := by
        rw [← same]
        rfl
      exact ⟨(entry.name, data), (bind_ok _ _ _).mpr ⟨data, written, rfl⟩, name, by rw [name]; exact file⟩
  have ordered : ∀ a ∈ events, ∀ b ∈ events, a.sequence < b.sequence →
      receiptPath a.sequence < receiptPath b.sequence :=
    fun a first b second less => receipt_path_lt _ _ (le_of_lt (inside a first).2) less
      (narrow b (List.mem_of_mem_filter (inside b second).1))
  obtain ⟨data, written, manifest⟩ := manifest_filed rt loads undoes checkpoint
    ⟨package.packageId.toText, package.idempotencyKey, package.instrumentId, dict (checkpoint.shown rt),
      entries⟩ files
    (filed.length_eq.symm.trans stored.length_eq)
  refine ⟨_, _, files.map fun file => zipFile file.1 file.2, zipFile "manifest.json" data,
    (bind_ok _ _ _).mpr ⟨entries, loaded, (bind_ok _ _ _).mpr ⟨_, checkpoint_view_shown rt checkpoint, rfl⟩⟩,
    (bind_ok _ _ _).mpr ⟨files, serialized, (bind_ok _ _ _).mpr ⟨_, manifest_built rt checkpoint _ files rfl,
      (bind_ok _ _ _).mpr ⟨data, written, rfl⟩⟩⟩, ?_, ?_⟩
  · rw [List.length_map, ← stored.length_eq, filed.length_eq]
  have names : (files.map fun file => zipFile file.1 file.2).map ZipMember.name =
      events.map fun event => receiptPath event.sequence := by
    rw [List.map_map, ← List.forall₂_eq_eq_eq, List.forall₂_map_left_iff, List.forall₂_map_right_iff]
    exact stored.flip.imp fun file event both => both.1
  have ascending : (events.map fun event => receiptPath event.sequence).Pairwise fun a b => a < b :=
    List.pairwise_map.mpr (sorted.imp_of_mem fun first second => ordered _ first _ second)
  refine ⟨?_, ?_, ?_, ?_, manifest⟩
  · rw [is, List.forall₂_map_right_iff]
    exact stored.imp fun event file both => both.2
  · rw [names]
    refine ascending.imp fun {a b} less => ?_
    rintro rfl
    exact String.lt_irrefl a less
  · rw [names]
    exact ascending
  · rw [is]
    intro a first b second
    refine ⟨ordered a first b second, fun less => ?_⟩
    by_contra later
    rcases eq_or_lt_of_le (not_lt.mp later) with same | before
    · exact String.lt_irrefl _ (same ▸ less)
    · exact String.lt_asymm less (ordered b second a first before)

end

end CalibrationLedger
