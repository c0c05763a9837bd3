import CalibrationLedger.Itemwise
import CalibrationLedger.Library.Passes

set_option autoImplicit false

-- Which item a refused batch names.
namespace CalibrationLedger

open JsonText Digest Interleaving Passes

section

variable (rt : Runtime)

def invalidAt (requests : List SubmitReport) : Set Nat :=
  {n | ∃ request, requests[n]? = some request ∧ ¬ Valid rt request}

-- An item that says something else than an earlier one with its key.
def repeatsAt (requests : List SubmitReport) : Set Nat :=
  {n | ∃ m < n, ∃ earlier request left right, requests[m]? = some earlier ∧ requests[n]? = some request ∧
    earlier.businessKey = request.businessKey ∧ Content rt earlier left ∧ Content rt request right ∧
    left ≠ right}

-- An item that says something else than the row with its key.
def contradictsAt (table : EventTable) (requests : List SubmitReport) : Set Nat :=
  {n | ∃ request row found, requests[n]? = some request ∧ table.byKey request.businessKey = some row ∧
    Content rt request found ∧ row.contentFingerprint ≠ found}

-- What is wrong with a batch, in the order it is looked for.
def refusals (table : EventTable) (requests : List SubmitReport) : List (Set Nat) :=
  [invalidAt rt requests, repeatsAt rt requests, contradictsAt rt table requests]

theorem content_unique (request : SubmitReport) (left right : String) (first : Content rt request left)
    (second : Content rt request right) :
    left = right := by
  obtain ⟨reportDigest, digested, rfl⟩ := first
  obtain ⟨again, digested', rfl⟩ := second
  rw [digested] at digested'
  cases digested'
  rfl

def repeatedItems (items : List PreparedReport) : Set Nat :=
  {n | ∃ m < n, ∃ earlier item, items[m]? = some earlier ∧ items[n]? = some item ∧
    earlier.request.businessKey = item.request.businessKey ∧ earlier.fingerprint ≠ item.fingerprint}

def contradictedItems (table : EventTable) (items : List PreparedReport) : Set Nat :=
  {n | ∃ item row, items[n]? = some item ∧ table.byKey item.request.businessKey = some row ∧
      row.contentFingerprint ≠ item.fingerprint}

section

variable (requests : List SubmitReport) (prepared : List PreparedReport)
  (made : prepareBatch rt 0 requests = .ok prepared)

include made

theorem prepared_request (n : Nat) (item : PreparedReport) (place : prepared[n]? = some item) :
    requests[n]? = some item.request ∧ Content rt item.request item.fingerprint := by
  have each := (prepare_batch_valid rt 0 requests prepared).mp made
  clear made
  induction each generalizing n with
  | nil => cases place
  | @cons request first requests prepared head _ ih =>
      cases n with
      | zero =>
          cases place
          obtain ⟨reportDigest, digested, rfl⟩ := head
          exact ⟨rfl, reportDigest, digested, rfl⟩
      | succ n => exact ih n place

theorem request_prepared (n : Nat) (request : SubmitReport) (place : requests[n]? = some request) :
    ∃ item, prepared[n]? = some item ∧ item.request = request := by
  have each := (prepare_batch_valid rt 0 requests prepared).mp made
  clear made
  induction each generalizing n with
  | nil => cases place
  | @cons first item requests prepared head _ ih =>
      cases n with
      | zero =>
          cases place
          obtain ⟨reportDigest, _, rfl⟩ := head
          exact ⟨_, rfl, rfl⟩
      | succ n => exact ih n place

theorem invalid_prepared : invalidAt rt requests = ∅ := by
  refine Set.eq_empty_iff_forall_notMem.mpr ?_
  rintro n ⟨request, place, invalid⟩
  obtain ⟨item, inside, rfl⟩ := request_prepared rt requests prepared made n request place
  obtain ⟨_, reportDigest, digested, _⟩ := prepared_request rt requests prepared made n item inside
  exact invalid ⟨reportDigest, digested⟩

theorem repeats_prepared : repeatsAt rt requests = repeatedItems prepared := by
  ext n
  constructor
  · rintro ⟨m, less, earlier, request, left, right, first, second, keyed, said, told, differ⟩
    obtain ⟨a, atA, rfl⟩ := request_prepared rt requests prepared made m earlier first
    obtain ⟨b, atB, rfl⟩ := request_prepared rt requests prepared made n request second
    refine ⟨m, less, a, b, atA, atB, keyed, ?_⟩
    rw [content_unique rt _ _ _ (prepared_request rt requests prepared made m a atA).2 said,
      content_unique rt _ _ _ (prepared_request rt requests prepared made n b atB).2 told]
    exact differ
  · rintro ⟨m, less, a, b, atA, atB, keyed, differ⟩
    obtain ⟨first, said⟩ := prepared_request rt requests prepared made m a atA
    obtain ⟨second, told⟩ := prepared_request rt requests prepared made n b atB
    exact ⟨m, less, a.request, b.request, _, _, first, second, keyed, said, told, differ⟩

theorem contradicts_prepared (table : EventTable) :
    contradictsAt rt table requests = contradictedItems table prepared := by
  ext n
  constructor
  · rintro ⟨request, row, found, place, known, told, differ⟩
    obtain ⟨item, inside, rfl⟩ := request_prepared rt requests prepared made n request place
    refine ⟨item, row, inside, known, ?_⟩
    rw [content_unique rt _ _ _ (prepared_request rt requests prepared made n item inside).2 told]
    exact differ
  · rintro ⟨item, row, inside, known, differ⟩
    obtain ⟨place, told⟩ := prepared_request rt requests prepared made n item inside
    exact ⟨item.request, row, _, place, known, told, differ⟩

end

theorem collision_stopped (index : Nat) (firstIndex : List (Nat × PreparedReport))
    (items : List PreparedReport) (error : PyError)
    (found : batchCollision index firstIndex items = some error) :
    ∃ earlier item later, items = earlier ++ item :: later ∧
      batchCollision index firstIndex earlier = none ∧
      Names "IDEMPOTENCY_CONFLICT" (index + earlier.length) error ∧
      ∃ first ∈ firstIndex.map Prod.snd ++ earlier,
      first.request.businessKey = item.request.businessKey ∧ first.fingerprint ≠ item.fingerprint := by
  induction items generalizing index firstIndex with
  | nil => cases found
  | cons item rest ih =>
      have further : ∀ count, index + (count + 1) = index + 1 + count := fun count => by omega
      cases known : firstIndex.find? fun entry => entry.2.request.businessKey = item.request.businessKey with
      | none =>
          simp only [batchCollision, known] at found
          obtain ⟨earlier, other, later, rfl, free, names, first, listed, keyed, apart⟩ := ih _ _ found
          refine ⟨item :: earlier, other, later, rfl, ?_, ?_, first, ?_, keyed, apart⟩
          · simp only [batchCollision, known]
            exact free
          · rw [List.length_cons, further]
            exact names
          · simpa using listed
      | some entry =>
          obtain ⟨prior, first⟩ := entry
          simp only [batchCollision, known] at found
          by_cases differs : first.fingerprint ≠ item.fingerprint
          · rw [if_pos differs] at found
            cases found
            refine ⟨[], item, rest, rfl, rfl, ⟨_, rfl, rfl, rfl⟩, first,
              ?_, by simpa using List.find?_some known, differs⟩
            rw [List.append_nil]
            exact List.mem_map_of_mem (f := Prod.snd) (List.mem_of_find?_eq_some known)
          · rw [if_neg differs] at found
            obtain ⟨earlier, other, later, rfl, free, names, first', listed, keyed, apart⟩ := ih _ _ found
            refine ⟨item :: earlier, other, later, rfl, ?_, ?_, first', ?_, keyed, apart⟩
            · simp only [batchCollision, known]
              rw [if_neg differs]
              exact free
            · rw [List.length_cons, further]
              exact names
            · rcases List.mem_append.mp listed with old | new
              · exact List.mem_append_left _ old
              · exact List.mem_append_right _ (List.mem_cons_of_mem _ new)

theorem collision_free (index : Nat) (firstIndex : List (Nat × PreparedReport)) (items : List PreparedReport)
    (before : ¬ Collides (firstIndex.map Prod.snd)) (free : batchCollision index firstIndex items = none) :
    ¬ Collides (firstIndex.map Prod.snd ++ items) := by
  induction items generalizing index firstIndex with
  | nil =>
      rw [List.append_nil]
      exact before
  | cons item rest ih =>
      cases known : firstIndex.find? fun entry => entry.2.request.businessKey = item.request.businessKey with
      | none =>
          simp only [batchCollision, known] at free
          have unkeyed : ∀ first ∈ firstIndex.map Prod.snd,
              first.request.businessKey ≠ item.request.businessKey := by
            intro first listed
            obtain ⟨entry, member, rfl⟩ := List.mem_map.mp listed
            simpa using List.find?_eq_none.mp known entry member
          have joined : ¬ Collides ((firstIndex ++ [(index, item)]).map Prod.snd) := by
            rintro ⟨a, first, b, second, keyed, apart⟩
            rw [List.map_append, List.mem_append] at first second
            rcases first with first | first <;> rcases second with second | second
            · exact before ⟨a, first, b, second, keyed, apart⟩
            · obtain rfl : b = item := List.mem_singleton.mp second
              exact unkeyed a first keyed
            · obtain rfl : a = item := List.mem_singleton.mp first
              exact unkeyed b second keyed.symm
            · rw [List.mem_singleton.mp first, List.mem_singleton.mp second] at apart
              exact apart rfl
          have whole := ih _ _ joined free
          simpa using whole
      | some entry =>
          obtain ⟨prior, first⟩ := entry
          have listed : first ∈ firstIndex.map Prod.snd :=
            List.mem_map_of_mem (f := Prod.snd) (List.mem_of_find?_eq_some known)
          have keyed : first.request.businessKey =
            item.request.businessKey := by simpa using List.find?_some known
          simp only [batchCollision, known] at free
          by_cases differs : first.fingerprint ≠ item.fingerprint
          · rw [if_pos differs] at free
            cases free
          · rw [if_neg differs] at free
            have others := ih _ _ before free
            have said : first.fingerprint = item.fingerprint := not_not.mp differs
            -- the item may be replaced by the first one of its key
            have instead : ∀ other ∈ firstIndex.map Prod.snd ++ item :: rest,
              ∃ same ∈ firstIndex.map Prod.snd ++ rest,
                same.request.businessKey = other.request.businessKey ∧
                same.fingerprint = other.fingerprint := by
              intro other member
              rcases List.mem_append.mp member with old | new
              · exact ⟨other, List.mem_append_left _ old, rfl, rfl⟩
              · rcases List.mem_cons.mp new with rfl | later
                · exact ⟨first, List.mem_append_left _ listed, keyed, said⟩
                · exact ⟨other, List.mem_append_right _ later, rfl, rfl⟩
            rintro ⟨a, memberA, b, memberB, same, apart⟩
            obtain ⟨c, memberC, keyC, saidC⟩ := instead a memberA
            obtain ⟨d, memberD, keyD, saidD⟩ := instead b memberB
            refine others ⟨c, memberC, d, memberD, keyC.trans (same.trans keyD.symm), ?_⟩
            rw [saidC, saidD]
            exact apart

theorem before_split (items earlier later : List PreparedReport) (item : PreparedReport)
    (split : items = earlier ++ item :: later) (n : Nat) (less : n < earlier.length)
    (other : PreparedReport) (place : items[n]? = some other) : other ∈ earlier := by
  rw [split, List.getElem?_append_left less] at place
  exact List.mem_of_getElem? place

theorem split_item (items earlier later : List PreparedReport) (item : PreparedReport)
    (split : items = earlier ++ item :: later) :
    items[earlier.length]? = some item := by
  rw [split, List.getElem?_append_right (Nat.le_refl _), Nat.sub_self]
  rfl

theorem split_before (items earlier later : List PreparedReport) (item : PreparedReport)
    (split : items = earlier ++ item :: later) (other : PreparedReport) (inside : other ∈ earlier) :
    ∃ m < earlier.length, items[m]? = some other := by
  obtain ⟨m, less, rfl⟩ := List.mem_iff_getElem.mp inside
  exact ⟨m, less, by rw [split, List.getElem?_append_left less, List.getElem?_eq_getElem less]⟩

theorem collision_least (items : List PreparedReport) (error : PyError)
    (found : batchCollision 0 [] items = some error) :
    ∃ n, Names "IDEMPOTENCY_CONFLICT" n error ∧ IsLeast (repeatedItems items) n := by
  obtain ⟨earlier, item, later, split, free, names, first, listed, keyed, apart⟩ :=
    collision_stopped 0 [] items error found
  rw [Nat.zero_add] at names
  refine ⟨earlier.length, names, ?_, ?_⟩
  · obtain ⟨m, less, place⟩ := split_before items earlier later item split first listed
    exact ⟨m, less, first, item, place, split_item items earlier later item split, keyed, apart⟩
  · rintro n ⟨m, less, a, b, placeA, placeB, same, differ⟩
    by_contra below
    have agree := collision_free 0 [] earlier (by rintro ⟨_, absent, _⟩; cases absent) free
    refine agree ⟨a, before_split items earlier later item split m (by omega) a placeA,
      b, before_split items earlier later item split n (by omega) b placeB, same, differ⟩

theorem collision_none (items : List PreparedReport) (free : batchCollision 0 [] items = none) :
    repeatedItems items = ∅ := by
  refine Set.eq_empty_iff_forall_notMem.mpr ?_
  rintro n ⟨m, _, a, b, placeA, placeB, same, differ⟩
  have agree := collision_free 0 [] items (by rintro ⟨_, absent, _⟩; cases absent) free
  exact agree ⟨a, List.mem_of_getElem? placeA, b, List.mem_of_getElem? placeB, same, differ⟩

theorem repeated_collision (items : List PreparedReport) (free : repeatedItems items = ∅) :
    ¬ Collides items := by
  rintro ⟨a, memberA, b, memberB, keyed, differ⟩
  obtain ⟨m, placeA⟩ := List.mem_iff_getElem?.mp memberA
  obtain ⟨n, placeB⟩ := List.mem_iff_getElem?.mp memberB
  rcases Nat.lt_trichotomy m n with less | rfl | more
  · exact Set.eq_empty_iff_forall_notMem.mp free n ⟨m, less, a, b, placeA, placeB, keyed, differ⟩
  · rw [placeA] at placeB
    cases placeB
    exact differ rfl
  · exact Set.eq_empty_iff_forall_notMem.mp free m ⟨n, more, b, a, placeB, placeA, keyed.symm, Ne.symm differ⟩

theorem take_origin (count : Nat) (p q : Progress) (item : PreparedReport) (pair : Event × Bool)
    (fits : NewIdsAhead (count + 1) p) (taken : p.take rt item = some (pair, q)) (key : String)
    (row : Event) (found : q.table.byKey key = some row) :
    p.table.byKey key = some row ∨ item.request.businessKey = key ∧
    row.contentFingerprint = item.fingerprint := by
  cases known : p.table.byKey item.request.businessKey with
  | some existing =>
      rw [take_known rt p item existing known] at taken
      split at taken <;> cases taken
      exact .inl found
  | none =>
      rw [take_new rt p item known] at taken
      cases taken
      rw [by_key_filed rt p item fits.below, List.find?_append] at found
      rcases Option.or_eq_some_iff.mp found with old | ⟨_, new⟩
      · exact .inl old
      · rw [List.find?_singleton] at new
        split at new
        · cases new
          rename_i keyed
          exact .inr ⟨of_decide_eq_true keyed, rfl⟩
        · cases new

theorem take_all_origin (items : List PreparedReport) (p q : Progress) (pairs : List (Event × Bool))
    (fits : NewIdsAhead items.length p) (taken : p.takeAll rt items = some (pairs, q)) (key : String)
    (row : Event) (found : q.table.byKey key = some row) :
    p.table.byKey key = some row ∨ ∃ item ∈ items, item.request.businessKey = key ∧
    row.contentFingerprint = item.fingerprint := by
  induction items generalizing p pairs with
  | nil =>
      cases taken
      exact .inl found
  | cons item rest ih =>
      obtain ⟨pair, middle, later, first, others, rfl⟩ := (take_all_cons rt p item rest pairs q).mp taken
      rcases ih middle later
        (new_ids_ahead_taken rt rest.length p middle item pair fits first) others with old | ⟨other,
          inside, same⟩
      · rcases take_origin rt rest.length p middle item pair fits first key row old with older | own
        · exact .inl older
        · exact .inr ⟨item, List.mem_cons_self, own⟩
      · exact .inr ⟨other, List.mem_cons_of_mem item inside, same⟩

theorem take_all_taken (items : List PreparedReport) (p : Progress) (fits : NewIdsAhead items.length p)
    (agree : ¬ Collides items)
    (said : ∀ item ∈ items, ∀ row, p.table.byKey item.request.businessKey = some row →
      row.contentFingerprint = item.fingerprint) :
    ∃ pairs q, p.takeAll rt items = some (pairs, q) := by
  induction items generalizing p with
  | nil => exact ⟨[], p, rfl⟩
  | cons item rest ih =>
      have first : ∃ pair middle, p.take rt item = some (pair, middle) := by
        cases known : p.table.byKey item.request.businessKey with
        | some row =>
            exact ⟨_, p, by rw [take_known rt p item row known,
              if_pos (said item List.mem_cons_self row known)]⟩
        | none => exact ⟨_, _, take_new rt p item known⟩
      obtain ⟨pair, middle, first⟩ := first
      have agreeRest : ¬ Collides rest := fun ⟨a, memberA, b, memberB, differ⟩ =>
        agree ⟨a, List.mem_cons_of_mem _ memberA, b, List.mem_cons_of_mem _ memberB, differ⟩
      obtain ⟨later, q, others⟩ := ih middle
          (new_ids_ahead_taken rt rest.length p middle item pair fits first) agreeRest fun other inside
            row found => by
        rcases take_origin rt rest.length p middle item pair fits first _ row found with old | ⟨keyed, told⟩
        · exact said other (List.mem_cons_of_mem _ inside) row old
        · rw [told]
          by_contra differ
          exact agree ⟨item, List.mem_cons_self, other, List.mem_cons_of_mem _ inside, keyed, differ⟩
      exact ⟨_, q, (take_all_cons rt p item rest _ q).mpr ⟨pair, middle, later, first, others, rfl⟩⟩

theorem stopped_least (items : List PreparedReport) (p : Progress) (count : Nat)
    (fits : NewIdsAhead items.length p) (stopped : Stopped rt p items count) (agree : ¬ Collides items) :
    IsLeast (contradictedItems p.table items) count := by
  obtain ⟨earlier, item, later, pairs, q, split, rfl, taken, refused⟩ := stopped
  have fewer : NewIdsAhead earlier.length p := by
    refine ⟨fits.below, fun n less => fits.unused n ?_, fun m n less bound => fits.apart m n less ?_⟩
    all_goals
      rw [split, List.length_append]
      omega
  obtain ⟨keeps, answers⟩ := take_all_agree rt earlier p q pairs fewer taken
  refine ⟨?_, ?_⟩
  · cases known : q.table.byKey item.request.businessKey with
    | none =>
        rw [take_new rt q item known] at refused
        cases refused
    | some row =>
        rw [take_known rt q item row known] at refused
        split at refused
        · cases refused
        · rename_i differ
          rcases take_all_origin rt earlier p q pairs fewer taken _ row known with old | ⟨other,
            inside, keyed, told⟩
          · exact ⟨item, row, split_item items earlier later item split, old, differ⟩
          · refine absurd ⟨other, ?_, item, ?_, keyed, told ▸ differ⟩ agree
            · rw [split]
              exact List.mem_append_left _ inside
            · rw [split]
              exact List.mem_append_right _ List.mem_cons_self
  · rintro n ⟨other, row, place, known, differ⟩
    by_contra below
    obtain ⟨row', found, told⟩ :=
      answers other (before_split items earlier later item split n (by omega) other place)
    rw [keeps _ row known] at found
    cases found
    exact differ told

end

section

variable {ι : Type} [DecidableEq ι] [Fintype ι] (i : ι) (rt : Runtime) (requests : List SubmitReport)

-- The items before this one can all be submitted one after another, and it is then
-- refused.
def RefusedAt (store : Store ι) (supply : Supply) (n : Nat) : Prop :=
  ∃ request pairs middle left error after rest, requests[n]? = some request ∧
    runTx i (appendEach rt (requests.take n)) store supply = some (.ok pairs, middle, left) ∧
    runTx i (appendReport rt request) middle left = some (.error error, after, rest)

theorem run_each_stops (earlier later : List SubmitReport) (request : SubmitReport)
    (store middle after : Store ι) (supply left rest : Supply) (pairs : List (Event × Bool))
    (error : PyError)
    (each : runTx i (appendEach rt earlier) store supply = some (.ok pairs, middle, left))
    (refused : runTx i (appendReport rt request) middle left = some (.error error, after, rest)) :
    runTx i (appendEach rt (earlier ++ request :: later)) store supply =
      some (.error error, after, rest) := by
  have joined : appendEach rt (earlier ++ request :: later) =
      appendEach rt earlier >>= fun pairs => appendEach rt (request :: later) >>= fun more =>
        pure (pairs ++ more) := by
    clear each
    induction earlier with
    | nil => simp [appendEach]
    | cons first others ih => simp [appendEach, ih]
  rw [joined]
  refine (run_ok i store middle supply left _ _ pairs each).trans ?_
  exact run_error i middle after left rest _ _ error (run_error i middle after left rest _ _ error refused)

theorem refused_once (store : Store ι) (supply : Supply) (m n : Nat)
    (first : RefusedAt i rt requests store supply m) (second : RefusedAt i rt requests store supply n) :
    ¬ m < n := by
  intro less
  obtain ⟨request, pairs, middle, left, error, after, rest, place, each, refused⟩ := first
  obtain ⟨_, _, _, _, _, _, _, _, whole, _⟩ := second
  have inside : (requests.take n)[m]? = some request := by
    rw [List.getElem?_take_of_lt less]
    exact place
  obtain ⟨short, is⟩ := List.getElem?_eq_some_iff.mp inside
  have split : requests.take n = requests.take m ++ request :: (requests.take n).drop (m + 1) := by
    have halves := List.take_append_drop m (requests.take n)
    rw [List.drop_eq_getElem_cons short, is, List.take_take, Nat.min_eq_left (by omega)] at halves
    exact halves.symm
  rw [split, run_each_stops i rt _ _ request store middle after supply left rest pairs error each
    refused] at whole
  cases whole

theorem refused_unique (store : Store ι) (supply : Supply) (m n : Nat)
    (first : RefusedAt i rt requests store supply m) (second : RefusedAt i rt requests store supply n) :
    m = n := by
  have before := refused_once i rt requests store supply m n first second
  have behind := refused_once i rt requests store supply n m second first
  omega

omit [DecidableEq ι] [Fintype ι] in
theorem taken_place (n m : Nat) (request : SubmitReport) (inside : (requests.take n)[m]? = some request) :
    m < n ∧ requests[m]? = some request := by
  have less : m < n := by
    have bound := (List.getElem?_eq_some_iff.mp inside).1
    rw [List.length_take] at bound
    omega
  rw [List.getElem?_take_of_lt less] at inside
  exact ⟨less, inside⟩

theorem fault_refused (store : Store ι) (supply : Supply) (quiet : Quiet store)
    (fits : NewIdsAhead requests.length (progress i store supply)) (n : Nat)
    (least : IsLeast (faults (refusals rt store.events requests)) n) :
    RefusedAt i rt requests store supply n := by
  have visible := idle_visible i store (quiet i)
  have fault : n ∈ invalidAt rt requests ∨ n ∈ repeatsAt rt requests ∨
      n ∈ contradictsAt rt store.events requests := by
    simpa [faults, refusals] using least.1
  have sound : ∀ m < n, m ∉ invalidAt rt requests ∧ m ∉ repeatsAt rt requests ∧
      m ∉ contradictsAt rt store.events requests := by
    intro m less
    have absent : m ∉ faults (refusals rt store.events requests) := fun inside =>
      absurd (least.2 inside) (by omega)
    simpa [faults, refusals] using absent
  obtain ⟨request, place⟩ : ∃ request, requests[n]? = some request := by
    rcases fault with ⟨request, place, _⟩ | ⟨_, _, _, request, _, _, _, place, _⟩ | ⟨request, _, _, place, _⟩
    all_goals exact ⟨request, place⟩
  have short : n < requests.length := (List.getElem?_eq_some_iff.mp place).1
  have earlier := taken_place requests n
  obtain ⟨prepared, made⟩ : ∃ prepared, prepareBatch rt 0 (requests.take n) = .ok prepared := by
    cases made : prepareBatch rt 0 (requests.take n) with
    | ok prepared => exact ⟨prepared, rfl⟩
    | error error =>
        obtain ⟨front, bad, back, split, _, invalid, _⟩ := prepare_batch_invalid rt 0 _ error made
        have inside : (requests.take n)[front.length]? = some bad := by
          rw [split, List.getElem?_append_right (Nat.le_refl _), Nat.sub_self]
          rfl
        obtain ⟨less, there⟩ := earlier _ _ inside
        exact absurd ⟨bad, there, invalid⟩ (sound _ less).1
  have agree : ¬ Collides prepared := by
    refine repeated_collision prepared ?_
    rw [← repeats_prepared rt _ prepared made]
    refine Set.eq_empty_iff_forall_notMem.mpr ?_
    rintro m ⟨o, before, a, b, left, right, placeA, placeB, differ⟩
    obtain ⟨less, there⟩ := earlier m b placeB
    exact (sound m less).2.1 ⟨o, before, a, b, left, right, (earlier o a placeA).2, there, differ⟩
  have said : ∀ item ∈
    prepared, ∀ row, (progress i store supply).table.byKey item.request.businessKey = some row →
      row.contentFingerprint = item.fingerprint := by
    intro item inside row known
    by_contra differ
    obtain ⟨m, there⟩ := List.mem_iff_getElem?.mp inside
    have contradicted : m ∈ contradictsAt rt store.events (requests.take n) := by
      rw [contradicts_prepared rt _ prepared made]
      exact ⟨item, row, there, visible ▸ known, differ⟩
    obtain ⟨other, row', found, placed, rest⟩ := contradicted
    obtain ⟨less, listed⟩ := earlier m other placed
    exact (sound m less).2.2 ⟨other, row', found, listed, rest⟩
  have long : prepared.length = n := by
    rw [fits_prepared rt _ prepared made, List.length_take, Nat.min_eq_left (by omega)]
  have fewer : NewIdsAhead (prepared.length + 1) (progress i store supply) :=
    ⟨fits.below, fun m less => fits.unused m (by omega), fun m o less bound => fits.apart m o less (by omega)⟩
  have fewest := new_ids_ahead_fewer prepared.length _ fewer
  obtain ⟨pairs, q, taken⟩ := take_all_taken rt prepared _ fewest agree said
  obtain ⟨middle, each, quietMiddle, reached⟩ :=
    (run_each i rt _ prepared store supply quiet made fewest).1 pairs q taken
  by_cases valid : Valid rt request
  · obtain ⟨reportDigest, digested⟩ := valid
    obtain ⟨keeps, answers⟩ := take_all_agree rt prepared _ q pairs fewest taken
    have content : ∀ found, Content rt request found →
        found = (preparedItem rt request reportDigest).fingerprint := fun found told =>
      content_unique rt request _ _ told ⟨reportDigest, digested, rfl⟩
    have refused : q.take rt (preparedItem rt request reportDigest) = none := by
      have other : ∃ row, q.table.byKey request.businessKey = some row ∧
          row.contentFingerprint ≠ (preparedItem rt request reportDigest).fingerprint := by
        rcases fault with ⟨again, placed, invalid⟩ | ⟨m, less, a, b, left, right, placeA, placeB, keyed,
          saidA, saidB, differ⟩ |
          ⟨again, row, found, placed, known, told, differ⟩
        · rw [place] at placed
          cases placed
          exact absurd ⟨reportDigest, digested⟩ invalid
        · rw [place] at placeB
          cases placeB
          have inside : (requests.take n)[m]? = some a := by
            rw [List.getElem?_take_of_lt less]
            exact placeA
          obtain ⟨item, there, rfl⟩ := request_prepared rt _ prepared made m a inside
          obtain ⟨row, found, same⟩ := answers item (List.mem_of_getElem? there)
          rw [keyed] at found
          refine ⟨row, found, ?_⟩
          rw [same, content_unique rt _ _ _ (prepared_request rt _ prepared made m item there).2 saidA,
            ← content right saidB]
          exact differ
        · rw [place] at placed
          cases placed
          rw [content found told] at differ
          rw [← visible] at known
          exact ⟨row, keeps _ row known, differ⟩
      obtain ⟨row, found, differ⟩ := other
      rw [take_known rt q (preparedItem rt request reportDigest) row found, if_neg differ]
    rw [← reached] at refused
    obtain ⟨error, ran, _⟩ :=
      run_report_refused i middle q.supply rt quietMiddle request reportDigest digested refused
    exact ⟨request, pairs, middle, q.supply, error, middle, q.supply, place, each, ran⟩
  · exact ⟨request, pairs, middle, q.supply, .valueError, middle, q.supply, place, each,
      run_report_invalid i middle rt q.supply request valid⟩

theorem batch_reports (store : Store ι) (supply : Supply) (quiet : Quiet store)
    (fits : NewIdsAhead requests.length (progress i store supply)) (error : PyError) (after : Store ι)
    (left : Supply)
    (rejected : runTx i (appendReportBatch rt requests) store supply = some (.error error, after, left)) :
    ∃ code index, (code = "BATCH_ITEM_INVALID" ∨ code = "IDEMPOTENCY_CONFLICT") ∧ Names code index error ∧
      Reports (refusals rt store.events requests) index := by
  have visible := idle_visible i store (quiet i)
  cases made : prepareBatch rt 0 requests with
  | error raised =>
      obtain ⟨earlier, request, later, split, refused, invalid, valid⟩ :=
        prepare_batch_invalid rt 0 requests raised made
      rw [Nat.zero_add] at refused
      have same : raised = error := by
        rw [appendReportBatch, made] at rejected
        cases rejected
        rfl
      refine ⟨_, earlier.length, .inl rfl, ⟨_, same ▸ refused, rfl, rfl⟩, .inl ⟨⟨request, ?_, invalid⟩, ?_⟩⟩
      · rw [split, List.getElem?_append_right (Nat.le_refl _), Nat.sub_self]
        rfl
      · rintro n ⟨other, place, wrong⟩
        by_contra below
        rw [split, List.getElem?_append_left (by omega)] at place
        exact wrong (valid other (List.mem_of_getElem? place))
  | ok prepared =>
      rw [← fits_prepared rt requests prepared made] at fits
      rw [batch_prepared rt requests prepared made] at rejected
      have repeats := repeats_prepared rt requests prepared made
      cases collision : batchCollision 0 [] prepared with
      | some conflict =>
          rw [collision] at rejected
          cases rejected
          obtain ⟨index, names, least⟩ := collision_least prepared error collision
          exact ⟨_, index, .inr rfl, names,
            .inr ⟨invalid_prepared rt requests prepared made, .inl (repeats ▸ least)⟩⟩
      | none =>
          rw [collision] at rejected
          have free := collision_none prepared collision
          obtain ⟨good, bad⟩ := run_attempt i rt prepared (batchInsertAttempts - 1) store supply quiet fits
          cases taken : (progress i store supply).takeAll rt prepared with
          | some result =>
              obtain ⟨last, ran, _⟩ := good result.1 result.2 taken
              have same := rejected.symm.trans ran
              cases same
          | none =>
              obtain ⟨raised, last, rest, index, ran, stopped, names, _⟩ := bad taken
              have same := rejected.symm.trans ran
              cases same
              have least := stopped_least rt prepared _ index fits stopped (repeated_collision prepared free)
              rw [show (progress i store supply).table = store.events from visible,
                ← contradicts_prepared rt requests prepared made] at least
              exact ⟨_, index, .inr rfl, names,
                .inr ⟨invalid_prepared rt requests prepared made, .inr ⟨repeats.trans free, .inl least⟩⟩⟩

-- The named item is the first one refused exactly if no other kind of fault comes before
-- it.
theorem named_items_are_first (calls : ι → Call) (config : Config (postgres ι) (Py Outcome))
    (reached : Reaches (postgres ι) (start rt calls) config) (quiet : Quiet (config.store : Store ι))
    (supply : Supply)
    (unused : ∀ n < requests.length, ∀ row ∈ (config.store : Store ι).events.rows,
      row.eventId ≠ supply.uuids n)
    (apart : ∀ m n, m < n → n < requests.length → supply.uuids m ≠ supply.uuids n) (error : PyError)
    (after : Store ι) (left : Supply)
    (rejected : runTx i (appendReportBatch rt requests) config.store supply =
      some (.error error, after, left)) :
    ∃ details, error = .ledger details ∧
    (details.code = "BATCH_ITEM_INVALID" ∨ details.code = "IDEMPOTENCY_CONFLICT") ∧
      ((∃ index : Nat, details.details.lookup "index" = some (.int index) ∧
          IsLeast {n | RefusedAt i rt requests config.store supply n} index) ↔
        InOrder (refusals rt (config.store : Store ι).events requests)) := by
  have sound := history_sound rt calls config reached
  have fits := new_ids_ahead_quiet i rt _ config.store sound supply quiet requests.length unused apart
  obtain ⟨code, index, kinds, ⟨details, rfl, rfl, named⟩, reported⟩ :=
    batch_reports i rt requests config.store supply quiet fits error after left rejected
  have refusal := fault_refused i rt requests config.store supply quiet fits
  refine ⟨details, rfl, kinds, ?_, fun ordered => ⟨index, named, ?_⟩⟩
  · rintro ⟨n, called, least⟩
    have same : index = n := by
      rw [named] at called
      simpa using called
    have nonempty : (faults (refusals rt (config.store : Store ι).events requests)).Nonempty :=
      ⟨index, reports_fault _ index reported⟩
    classical
    have first := Nat.isLeast_find nonempty
    rw [← reports_least _ index reported, same,
      refused_unique i rt requests config.store supply n _ least.1 (refusal _ first)]
    exact first
  · have first := refusal index ((reports_least _ index reported).mpr ordered)
    refine ⟨first, fun n refused => ?_⟩
    rw [refused_unique i rt requests config.store supply n index refused first]

end

def contradictingRequest : SubmitReport := ⟨"report-1", "scale-7", "ada", .null⟩

def nanRequest : SubmitReport := ⟨"report-2", "scale-7", "ada", .float .nan⟩

theorem sample_contradicted (table : EventTable) (rows : table.rows = [sampleEvent]) :
    0 ∈ contradictsAt reference table [contradictingRequest, nanRequest] := by
  have found : table.byKey contradictingRequest.businessKey = some sampleEvent := by
    rw [EventTable.byKey, rows]
    decide
  exact ⟨contradictingRequest, sampleEvent, _, rfl, found, ⟨_, rfl, rfl⟩, by decide +kernel⟩

theorem sample_batch_refused (store : Store Bool) (supply : Supply) :
    runTx true (appendReportBatch reference [contradictingRequest, nanRequest]) store supply =
      some (.error (invalidReport reference 1 nanRequest), store, supply) := by
  have made : prepareBatch reference 0 [contradictingRequest, nanRequest] =
      .error (invalidReport reference 1 nanRequest) := by
    rw [prepareBatch, prepare_valid reference 0 contradictingRequest _ rfl]
    rfl
  rw [appendReportBatch, made]
  rfl

def disorderlyRequests : List SubmitReport := [contradictingRequest, nanRequest]

-- Item 1 is named, and item 0 is refused.
theorem sample_item_misnamed : ∃ (config : Config (postgres Bool) (Py Outcome)) (details : LedgerError),
    Reaches (postgres Bool) (start reference sampleCalls) config ∧ Quiet (config.store : Store Bool) ∧
    runTx true (appendReportBatch reference disorderlyRequests) config.store freshSupply =
      some (.error (.ledger details), config.store, freshSupply) ∧
    details.code = "BATCH_ITEM_INVALID" ∧ details.details.lookup "index" = some (.int 1) ∧
    IsLeast {n | RefusedAt true reference disorderlyRequests config.store freshSupply n} 0 := by
  obtain ⟨config, reached, rows, _, quiet, _⟩ := sample_run
  have sound := history_sound reference sampleCalls config reached
  have unused := fresh_unused (config.store : Store Bool).events rows
  have fits := new_ids_ahead_quiet true reference _ config.store sound freshSupply quiet 2
    (fun n less => unused n (by omega))
    fun m n less bound => fresh_apart n (by omega) m less
  have contradicted := sample_contradicted (config.store : Store Bool).events rows
  have least : IsLeast
      (faults (refusals reference (config.store : Store Bool).events disorderlyRequests)) 0 :=
    ⟨⟨_, .tail _ (.tail _ (.head _)), contradicted⟩, fun n _ => n.zero_le⟩
  have first := fault_refused true reference disorderlyRequests config.store freshSupply quiet fits 0 least
  exact ⟨config, _, reached, quiet, sample_batch_refused config.store freshSupply, rfl, rfl, first,
    fun n _ => n.zero_le⟩

def orderlyRequests : List SubmitReport := [nanRequest, contradictingRequest]

theorem sample_nan_refused (store : Store Bool) (supply : Supply) :
    runTx true (appendReportBatch reference orderlyRequests) store supply =
      some (.error (invalidReport reference 0 nanRequest), store, supply) := by
  have made : prepareBatch reference 0 orderlyRequests = .error (invalidReport reference 0 nanRequest) := rfl
  rw [appendReportBatch, made]
  rfl

theorem sample_in_order (table : EventTable) : InOrder (refusals reference table orderlyRequests) := by
  have invalid : 0 ∈ invalidAt reference orderlyRequests := by
    refine ⟨nanRequest, rfl, ?_⟩
    rintro ⟨_, digested⟩
    cases digested
  refine ⟨fun place least other _ => (least.2 invalid).trans other.zero_le, fun none => ?_⟩
  rw [none] at invalid
  cases invalid

-- The same two reports both ways round: in order, and not.
theorem sample_items_first : ∃ (config : Config (postgres Bool) (Py Outcome)) (named misnamed : LedgerError),
    Reaches (postgres Bool) (start reference sampleCalls) config ∧
    runTx true (appendReportBatch reference orderlyRequests) config.store freshSupply =
      some (.error (.ledger named), config.store, freshSupply) ∧
    (∃ index : Nat, named.details.lookup "index" = some (.int index) ∧
      IsLeast {n | RefusedAt true reference orderlyRequests config.store freshSupply n} index) ∧
    runTx true (appendReportBatch reference disorderlyRequests) config.store freshSupply =
      some (.error (.ledger misnamed), config.store, freshSupply) ∧
    ((∃ index : Nat, misnamed.details.lookup "index" = some (.int index) ∧
        IsLeast {n | RefusedAt true reference disorderlyRequests config.store freshSupply n} index) ↔
      InOrder (refusals reference (config.store : Store Bool).events disorderlyRequests)) := by
  obtain ⟨config, reached, rows, _, quiet, _⟩ := sample_run
  have unused := fresh_unused (config.store : Store Bool).events rows
  have good := sample_nan_refused config.store freshSupply
  have bad := sample_batch_refused config.store freshSupply
  obtain ⟨named, same, _, ordered⟩ :=
    named_items_are_first true reference orderlyRequests sampleCalls config reached quiet freshSupply
    (fun n less => unused n (Nat.lt_succ_of_lt less))
    (fun m n less bound => fresh_apart n (Nat.lt_succ_of_lt bound) m less) _ _ _ good
  obtain ⟨misnamed, wrong, _, disordered⟩ :=
    named_items_are_first true reference disorderlyRequests sampleCalls config reached quiet
    freshSupply (fun n less => unused n (Nat.lt_succ_of_lt less))
      (fun m n less bound => fresh_apart n (Nat.lt_succ_of_lt bound) m less)
    _ _ _ bad
  rw [same] at good
  rw [wrong] at bad
  exact ⟨config, named, misnamed, reached, good, ordered.mpr (sample_in_order _), bad, disordered⟩

end CalibrationLedger
