import AgentLibOS.Storage.HumanPages

namespace AgentLibOS.Storage
open Library Library.Json

/-! ## Batches -/

theorem mem_pidBatches {pids batch : List Text} (listed : batch ∈ pidBatches pids) :
    ∀ pid ∈ batch, pid ∈ pids := by
  obtain ⟨index, -, rfl⟩ := List.mem_map.mp listed
  exact fun pid inside => List.mem_of_mem_drop (List.mem_of_mem_take inside)

theorem pidBatches_cover {pids : List Text} {pid : Text} (listed : pid ∈ pids) :
    ∃ batch ∈ pidBatches pids, pid ∈ batch := by
  obtain ⟨position, bound, rfl⟩ := List.mem_iff_getElem.mp listed
  refine ⟨_, List.mem_map.mpr ⟨position / 400, List.mem_range.mpr (by omega), rfl⟩, ?_⟩
  rw [List.mem_iff_getElem]
  refine ⟨position % 400, ?_, ?_⟩
  · rw [List.length_take, List.length_drop]
    omega
  · rw [List.getElem_take, List.getElem_drop]
    congr 1
    omega

/-! ## Rows by id -/

/-- The kept rows, each once, are those that were seen. -/
structure Kept (rows seen : List HumanRequest) : Prop where
  distinct : (rows.map HumanRequest.requestId).Nodup
  same : ∀ row, row ∈ rows ↔ row ∈ seen

section
variable {table : List HumanRequest} (unique : (table.map HumanRequest.requestId).Nodup)
include unique

theorem keepRow_kept {rows seen : List HumanRequest} (kept : Kept rows seen)
    (known : ∀ row ∈ seen, row ∈ table) {row : HumanRequest} (listed : row ∈ table) :
    Kept (keepRow rows row) (seen ++ [row]) := by
  have agree {other : HumanRequest} (inside : other ∈ rows) (same : other.requestId = row.requestId) :
      other = row :=
    List.inj_on_of_nodup_map unique (known other ((kept.same other).mp inside)) listed same
  rw [keepRow]
  cases found : rows.any fun kept => decide (kept.requestId = row.requestId) with
  | true =>
      obtain ⟨other, inside, same⟩ := List.any_eq_true.mp found
      have equal := agree inside (of_decide_eq_true same)
      have unchanged : (rows.map fun kept =>
          if kept.requestId = row.requestId then row else kept) = rows := by
        refine (List.map_congr_left fun kept inside => ?_).trans (List.map_id rows)
        split_ifs with same
        · exact (agree inside same).symm
        · rfl
      rw [if_pos rfl, unchanged]
      refine ⟨kept.distinct, fun row' => ?_⟩
      rw [List.mem_append, List.mem_singleton, ← kept.same]
      exact ⟨.inl, fun either => either.elim id fun same => same ▸ equal ▸ inside⟩
  | false =>
      rw [if_neg Bool.false_ne_true]
      have fresh : row.requestId ∉ rows.map HumanRequest.requestId := by
        intro inside
        obtain ⟨other, inside, same⟩ := List.mem_map.mp inside
        exact Bool.false_ne_true (found ▸ List.any_eq_true.mpr ⟨other, inside, decide_eq_true same⟩)
      refine ⟨?_, fun row' => ?_⟩
      · rw [List.map_append, List.map_singleton]
        exact List.nodup_append.mpr ⟨kept.distinct, List.nodup_singleton _, by
          intro id inside id' same equal
          rw [List.mem_singleton] at same
          exact fresh (same ▸ equal ▸ inside)⟩
      · rw [List.mem_append, List.mem_append, kept.same]

theorem foldl_keepRow {rows seen : List HumanRequest} (kept : Kept rows seen)
    (known : ∀ row ∈ seen, row ∈ table) {more : List HumanRequest} (listed : ∀ row ∈ more, row ∈ table) :
    Kept (more.foldl keepRow rows) (seen ++ more) := by
  induction more generalizing rows seen with
  | nil => simpa using kept
  | cons row more ih =>
      rw [List.forall_mem_cons] at listed
      have next := keepRow_kept unique kept known listed.1
      have known' : ∀ other ∈ seen ++ [row], other ∈ table := by
        intro other inside
        rcases List.mem_append.mp inside with early | last
        · exact known other early
        · exact List.mem_singleton.mp last ▸ listed.1
      rw [List.foldl_cons, ← List.singleton_append, ← List.append_assoc]
      exact ih next known' listed.2

theorem foldl_batches {batches : List (List Text)} {query : List Text → List HumanRequest}
    (listed : ∀ batch, ∀ row ∈ query batch, row ∈ table) {rows seen : List HumanRequest}
    (kept : Kept rows seen) (known : ∀ row ∈ seen, row ∈ table) :
    Kept (batches.foldl (fun rows batch => (query batch).foldl keepRow rows) rows)
      (seen ++ batches.flatMap query) := by
  induction batches generalizing rows seen with
  | nil => simpa using kept
  | cons batch batches ih =>
      have next := foldl_keepRow unique kept known (listed batch)
      have known' : ∀ row ∈ seen ++ query batch, row ∈ table := by
        intro row inside
        exact (List.mem_append.mp inside).elim (known row) (listed batch row)
      rw [List.foldl_cons, List.flatMap_cons, ← List.append_assoc]
      exact ih next known'

end

/-! ## One page -/

/-- Keys of which the newest is the least. -/
def newest (row : HumanRequest) : HumanKeyᵒᵈ := OrderDual.toDual row.key

instance : Std.Total newer := ⟨fun left right => le_total right.key left.key⟩

instance : IsTrans HumanRequest newer := ⟨fun _ _ _ first second => second.trans first⟩

/-- Requests of different ids are strictly ordered once they are sorted. -/
theorem sorted_newest {rows : List HumanRequest} (distinct : (rows.map HumanRequest.requestId).Nodup) :
    (rows.insertionSort newer).Pairwise fun left right => newest left < newest right := by
  have sorted := List.pairwise_insertionSort newer rows
  have ids : ((rows.insertionSort newer).map HumanRequest.requestId).Nodup :=
    ((List.perm_insertionSort newer rows).map _).nodup_iff.mpr distinct
  rw [List.Nodup, List.pairwise_map] at ids
  refine (sorted.and ids).imp fun {left right} both => ?_
  refine lt_of_le_of_ne both.1 fun same => both.2 ?_
  exact congrArg HumanKey.requestId (OrderDual.toDual.injective same)

/-- The requests of a scope: of these processes, in one of these states. -/
def inScope (pids : List Text) (statuses : Option (List HumanRequestStatus)) (row : HumanRequest) :
    Bool :=
  decide (row.pid ∈ pids) && statuses.all fun selected => decide (row.status ∈ selected)

/-- Every request of the scope, newest first. -/
def scopeRows (table : List HumanRequest) (pids : List Text)
    (statuses : Option (List HumanRequestStatus)) : List HumanRequest :=
  (table.filter (inScope pids statuses)).insertionSort newer

/-- The rest of the scope behind a key. -/
def restRows (table : List HumanRequest) (pids : List Text)
    (statuses : Option (List HumanRequestStatus)) (after : Option HumanKey) : List HumanRequest :=
  (scopeRows table pids statuses).filter fun row =>
    Pages.beyond (after.map OrderDual.toDual) (newest row)

theorem beyond_newest (after : Option HumanKey) (row : HumanRequest) :
    Pages.beyond (after.map OrderDual.toDual) (newest row) =
      after.all fun last => decide (row.key < last) := by
  cases after <;> rfl

theorem mem_restRows {table : List HumanRequest} {pids : List Text}
    {statuses : Option (List HumanRequestStatus)} {after : Option HumanKey} {row : HumanRequest} :
    row ∈ restRows table pids statuses after ↔
      row ∈ table ∧ inScope pids statuses row = true ∧
        (after.all fun last => decide (row.key < last)) = true := by
  rw [restRows, scopeRows, List.mem_filter, List.mem_insertionSort, List.mem_filter, beyond_newest,
    and_assoc]

section
variable {table : List HumanRequest} (unique : (table.map HumanRequest.requestId).Nodup)
  (pids : List Text) (statuses : Option (List HumanRequestStatus))
include unique

theorem scopeRows_sorted : (scopeRows table pids statuses).Pairwise
    fun left right => newest left < newest right :=
  sorted_newest (unique.sublist (List.filter_sublist.map _))

/-- A batch is queried for the first rows of its part of the rest. -/
theorem queryBatch_eq {batch : List Text} (part : ∀ pid ∈ batch, pid ∈ pids)
    (after : Option HumanKey) (limit : Nat) :
    queryTaskRunHumanBatch table batch statuses after limit =
      ((restRows table pids statuses after).filter fun row => decide (row.pid ∈ batch)).take limit := by
  rw [queryTaskRunHumanBatch]
  congr 1
  have sorted := sorted_newest (unique.sublist ((List.filter_sublist (p := fun row =>
    decide (row.pid ∈ batch) && (statuses.all fun selected => decide (row.status ∈ selected)) &&
      after.all fun last => decide (row.key < last))).map _))
  refine Pages.sorted_unique sorted
    (((scopeRows_sorted unique pids statuses).filter _).filter _) fun row => ?_
  rw [List.mem_insertionSort, List.mem_filter, List.mem_filter, mem_restRows, inScope]
  simp only [Bool.and_eq_true, decide_eq_true_iff]
  constructor
  · rintro ⟨listed, ⟨inside, state⟩, further⟩
    exact ⟨⟨listed, ⟨part _ inside, state⟩, further⟩, inside⟩
  · rintro ⟨⟨listed, ⟨-, state⟩, further⟩, inside⟩
    exact ⟨listed, ⟨inside, state⟩, further⟩

/-- The merged rows of the batches begin as the rest does. -/
theorem merged_take (after : Option HumanKey) (count : Nat) :
    (((pidBatches pids).foldl (fun rows batch =>
        (queryTaskRunHumanBatch table batch statuses after count).foldl keepRow rows) []).insertionSort
      newer).take count = (restRows table pids statuses after).take count := by
  have listed (batch : List Text) : ∀ row ∈ queryTaskRunHumanBatch table batch statuses after count,
      row ∈ table := by
    intro row inside
    rw [queryTaskRunHumanBatch] at inside
    have sorted := List.mem_of_mem_take inside
    rw [List.mem_insertionSort] at sorted
    exact (List.mem_filter.mp sorted).1
  have none : Kept [] [] := ⟨List.nodup_nil, fun _ => Iff.rfl⟩
  have kept : Kept ((pidBatches pids).foldl (fun rows batch =>
      (queryTaskRunHumanBatch table batch statuses after count).foldl keepRow rows) [])
        ([] ++ (pidBatches pids).flatMap fun batch =>
          queryTaskRunHumanBatch table batch statuses after count) :=
    foldl_batches unique listed none (by simp)
  have cover : ∀ row ∈ restRows table pids statuses after,
      ∃ part ∈ (pidBatches pids).map fun batch (row : HumanRequest) => decide (row.pid ∈ batch),
        part row = true := by
    intro row inside
    have scope := ((mem_restRows).mp inside).2.1
    rw [inScope, Bool.and_eq_true, decide_eq_true_iff] at scope
    obtain ⟨batch, listed, member⟩ := pidBatches_cover scope.1
    exact ⟨_, List.mem_map.mpr ⟨batch, listed, rfl⟩, decide_eq_true member⟩
  refine Pages.merged_take ((scopeRows_sorted unique pids statuses).filter _) cover
    (sorted_newest kept.distinct) fun row => ?_
  rw [List.mem_insertionSort, kept.same, List.nil_append, List.mem_flatMap]
  constructor
  · rintro ⟨batch, listed, inside⟩
    rw [queryBatch_eq unique pids statuses (mem_pidBatches listed)] at inside
    exact ⟨_, List.mem_map.mpr ⟨batch, listed, rfl⟩, inside⟩
  · rintro ⟨part, listed, inside⟩
    obtain ⟨batch, chosen, rfl⟩ := List.mem_map.mp listed
    refine ⟨batch, chosen, ?_⟩
    rwa [queryBatch_eq unique pids statuses (mem_pidBatches chosen)]

/-- The page that shows the first `limit` of the remaining rows. -/
def pageOf (rest : List HumanRequest) (limit : Nat) : HumanPage :=
  ⟨rest.take limit, if limit < rest.length then
    (rest.take limit).getLast?.map fun last => encodeTaskRunHumanCursor last.key else none⟩

omit unique in
theorem taskRunHumanPage_eq {rows rest : List HumanRequest} {limit : Nat}
    (same : (rows.insertionSort newer).take (limit + 1) = rest.take (limit + 1)) :
    taskRunHumanPage rows limit = pageOf rest limit := by
  have first : (rows.insertionSort newer).take limit = rest.take limit := by
    have shorter := congrArg (List.take limit) same
    rwa [List.take_take, List.take_take, Nat.min_eq_left (Nat.le_succ limit)] at shorter
  have more : limit < (rows.insertionSort newer).length ↔ limit < rest.length := by
    have lengths := congrArg List.length same
    rw [List.length_take, List.length_take] at lengths
    omega
  rw [taskRunHumanPage, pageOf, first]
  simp only [more]

omit unique in
theorem restRows_empty (after : Option HumanKey) (none : pids = [] ∨ statuses = some []) :
    restRows table pids statuses after = [] := by
  refine List.eq_nil_iff_forall_not_mem.mpr fun row inside => ?_
  have scope := (mem_restRows.mp inside).2.1
  rcases none with rfl | rfl
  · simp [inScope] at scope
  · simp [inScope] at scope

variable {config : PageConfig} {floats : Serde.Floats} {given : List Text}
  {wanted : Option (List String)} {asked : Option Int} {limit : Nat}
  (validPids : validatedTaskRunHumanPids config given = .ok pids)
  (validLimit : taskRunPageLimit config asked = .ok limit)
  (validStatuses : validatedTaskRunHumanStatuses wanted = .ok statuses)
include validPids validLimit validStatuses

theorem listHumanRequests_eq {cursor : HumanCursor} {after : Option HumanKey}
    (decoded : decodeTaskRunHumanCursor floats cursor = .ok after) :
    listHumanRequestsForPids config floats table given wanted asked cursor =
      .ok (pageOf (restRows table pids statuses after) limit) := by
  rw [listHumanRequestsForPids, validPids, validLimit, decoded, validStatuses]
  change (if pids = [] ∨ statuses = some [] then Except.ok (⟨[], none⟩ : HumanPage) else _) = _
  by_cases none : pids = [] ∨ statuses = some []
  · rw [if_pos none, restRows_empty pids statuses after none, pageOf, List.take_nil]
    rfl
  · rw [if_neg none]
    exact congrArg Except.ok (taskRunHumanPage_eq (merged_take unique pids statuses after (limit + 1)))

/-! ## All pages -/

theorem followPages_eq (positive : 0 < limit)
    (bounds : ∀ row ∈ table, row.key.InBounds ∧ row.key.Portable)
    {fuel : Nat} {cursor : HumanCursor} {after : Option HumanKey}
    (decoded : decodeTaskRunHumanCursor floats cursor = .ok after)
    (enough : (restRows table pids statuses after).length < fuel) :
    followPages (listHumanRequestsForPids config floats table given wanted asked) fuel cursor =
      .ok (restRows table pids statuses after) := by
  induction fuel generalizing cursor after with
  | zero => omega
  | succ fuel ih =>
      rw [followPages, listHumanRequests_eq unique pids statuses validPids validLimit validStatuses
        decoded]
      simp only [bind, Except.bind, pageOf]
      by_cases more : limit < (restRows table pids statuses after).length
      · obtain ⟨last, found⟩ : ∃ last,
            ((restRows table pids statuses after).take limit).getLast? = some last := by
          refine Option.isSome_iff_exists.mp (List.getLast?_isSome.mpr fun empty => ?_)
          have shown := congrArg List.length empty
          rw [List.length_take, List.length_nil] at shown
          omega
        have key := (mem_restRows.mp (List.mem_of_mem_take (List.mem_of_getLast? found))).1
        have next := decode_encode_cursor floats (bounds last key).1 (bounds last key).2
        have rest : restRows table pids statuses (some last.key) =
            (restRows table pids statuses after).drop limit :=
          Pages.filter_beyond_last (scopeRows_sorted unique pids statuses) found
        have shorter : (restRows table pids statuses (some last.key)).length < fuel := by
          rw [rest, List.length_drop]
          omega
        have later := ih next shorter
        simp only [if_pos more, found, Option.map_some, later, rest]
        exact congrArg Except.ok (List.take_append_drop _ _)
      · simp only [if_neg more]
        rw [List.take_of_length_le (Nat.le_of_not_lt more)]

end

/-- A request that the caller asks for. -/
def asked (pids : List Text) (statuses : Option (List String)) (row : HumanRequest) : Bool :=
  decide (row.pid ∈ pids) && decide (row.pid ≠ []) && statuses.all fun wanted =>
    wanted.any fun value => decide (HumanRequestStatus.ofValue value = some row.status)

theorem validatedPids_mem {config : PageConfig} {given pids : List Text}
    (valid : validatedTaskRunHumanPids config given = .ok pids) (pid : Text) :
    pid ∈ pids ↔ pid ∈ given ∧ pid ≠ [] := by
  rw [validatedTaskRunHumanPids] at valid
  simp only [Run.bind_eq_ok, Except.ok.injEq] at valid
  obtain ⟨-, -, -, -, rfl⟩ := valid
  rw [List.mem_eraseDups, List.mem_filter, decide_eq_true_iff]

theorem mapM_ofValue {wanted : List String} {statuses : List HumanRequestStatus}
    (valid : wanted.mapM HumanRequestStatus.ofValue = some statuses) (status : HumanRequestStatus) :
    status ∈ statuses ↔ ∃ value ∈ wanted, HumanRequestStatus.ofValue value = some status := by
  induction wanted generalizing statuses with
  | nil =>
      cases valid
      simp
  | cons value wanted ih =>
      rw [List.mapM_cons] at valid
      simp only [Option.bind_eq_bind, Option.bind_eq_some_iff, Option.pure_def,
        Option.some.injEq] at valid
      obtain ⟨first, read, rest, later, rfl⟩ := valid
      rw [List.mem_cons, ih later, List.exists_mem_cons_iff, read, Option.some.injEq]
      exact or_congr_left eq_comm

theorem inScope_asked {config : PageConfig} {given pids : List Text} {wanted : Option (List String)}
    {statuses : Option (List HumanRequestStatus)}
    (validPids : validatedTaskRunHumanPids config given = .ok pids)
    (validStatuses : validatedTaskRunHumanStatuses wanted = .ok statuses) :
    inScope pids statuses = asked given wanted := by
  funext row
  have states : (statuses.all fun selected => decide (row.status ∈ selected)) =
      wanted.all fun wanted =>
        wanted.any fun value => decide (HumanRequestStatus.ofValue value = some row.status) := by
    cases wanted with
    | none =>
        cases validStatuses
        rfl
    | some wanted =>
        rw [validatedTaskRunHumanStatuses] at validStatuses
        cases read : wanted.mapM HumanRequestStatus.ofValue with
        | none =>
            rw [read] at validStatuses
            cases validStatuses
        | some selected =>
            rw [read] at validStatuses
            cases validStatuses
            rw [Option.all_some, Option.all_some, Bool.eq_iff_iff, decide_eq_true_iff,
              List.mem_eraseDups, mapM_ofValue read, List.any_eq_true]
            simp only [decide_eq_true_iff]
  rw [inScope, asked, states, Bool.eq_iff_iff]
  simp only [Bool.and_eq_true, decide_eq_true_iff, validatedPids_mem validPids]

theorem taskRunPageLimit_pos {config : PageConfig} {asked : Option Int} {limit : Nat}
    (valid : taskRunPageLimit config asked = .ok limit) : 0 < limit := by
  rw [taskRunPageLimit] at valid
  simp only [Run.bind_eq_ok, Run.ensure_ok, Except.ok.injEq] at valid
  obtain ⟨-, positive, -, -, rfl⟩ := valid
  omega

/-- The pages of a scope hold every request of it once, newest first, and every cursor is read
back. -/
theorem human_pages_complete (config : PageConfig) (floats : Serde.Floats)
    {table : List HumanRequest} (unique : (table.map HumanRequest.requestId).Nodup)
    (bounds : ∀ row ∈ table, row.key.InBounds ∧ row.key.Portable)
    {given pids : List Text} {wanted : Option (List String)} {size : Option Int} {limit : Nat}
    {statuses : Option (List HumanRequestStatus)}
    (validPids : validatedTaskRunHumanPids config given = .ok pids)
    (validLimit : taskRunPageLimit config size = .ok limit)
    (validStatuses : validatedTaskRunHumanStatuses wanted = .ok statuses) :
    (∀ fuel, (table.filter (asked given wanted)).length < fuel → ∃ rows,
      followPages (listHumanRequestsForPids config floats table given wanted size) fuel .start =
        .ok rows ∧
      rows.Perm (table.filter (asked given wanted)) ∧
      rows.Pairwise fun left right => right.key < left.key) ∧
    ∀ key : HumanKey, key.InBounds → key.Portable →
      decodeTaskRunHumanCursor floats (.wire (encodeTaskRunHumanCursor key)) = .ok (some key) := by
  refine ⟨fun fuel enough => ?_, fun key inBounds portable =>
    decode_encode_cursor floats inBounds portable⟩
  have start : decodeTaskRunHumanCursor floats .start = .ok none := rfl
  have whole : restRows table pids statuses none = scopeRows table pids statuses :=
    List.filter_eq_self.mpr fun _ _ => rfl
  have scope := List.perm_insertionSort newer (table.filter (inScope pids statuses))
  rw [← scopeRows, inScope_asked validPids validStatuses] at scope
  have enough' : (restRows table pids statuses none).length < fuel := by
    rw [whole, scope.length_eq]
    exact enough
  have pages := followPages_eq unique pids statuses validPids validLimit validStatuses
    (taskRunPageLimit_pos validLimit) bounds start enough'
  rw [whole] at pages
  exact ⟨_, pages, scope, scopeRows_sorted unique pids statuses⟩

/-! ## Two processes, and keys that no cursor carries -/

def smallPages : PageConfig := ⟨2, 5, 1000⟩

/-- Three requests of two processes, two of them made at one time. -/
def twoOwners : List HumanRequest :=
  [⟨codes "hreq_b", codes "p1", .pending, codes "2026-01-01"⟩,
    ⟨codes "hreq_c", codes "p2", .approved, codes "2026-01-01"⟩,
    ⟨codes "hreq_a", codes "p1", .pending, codes "2026-01-02"⟩]

theorem human_pages_complete_small :
    (∀ fuel, (twoOwners.filter (asked [codes "p1", codes "p2"] none)).length < fuel → ∃ rows,
      followPages (listHumanRequestsForPids smallPages Serde.noFloats twoOwners
        [codes "p1", codes "p2"] none (some 1)) fuel .start = .ok rows ∧
      rows.Perm (twoOwners.filter (asked [codes "p1", codes "p2"] none)) ∧
      rows.Pairwise fun left right => right.key < left.key) ∧
    ∀ key : HumanKey, key.InBounds → key.Portable →
      decodeTaskRunHumanCursor Serde.noFloats (.wire (encodeTaskRunHumanCursor key)) =
        .ok (some key) :=
  human_pages_complete smallPages Serde.noFloats (by decide) (by decide +kernel)
    (show validatedTaskRunHumanPids smallPages [codes "p1", codes "p2"] =
      .ok [codes "p1", codes "p2"] by decide +kernel)
    (show taskRunPageLimit smallPages (some 1) = .ok 1 by decide) rfl

/-- Two requests of one process, one with an identifier of 300 characters. -/
def longOwner : List HumanRequest :=
  [⟨List.replicate 300 97, codes "p1", .pending, codes "2026-01-02"⟩,
    ⟨codes "hreq_a", codes "p1", .pending, codes "2026-01-01"⟩]

/-- A split surrogate pair within the bounds is joined, and a key beyond them ends the pages. -/
theorem human_pages_not_for_all_keys :
    (¬ ∀ key : HumanKey, key.InBounds → decodeTaskRunHumanCursor Serde.noFloats
      (.wire (encodeTaskRunHumanCursor key)) = .ok (some key)) ∧
    ¬ ∃ fuel rows, followPages (listHumanRequestsForPids smallPages Serde.noFloats longOwner
      [codes "p1"] none (some 1)) fuel .start = .ok rows := by
  constructor
  · intro back
    have joined : decodeTaskRunHumanCursor Serde.noFloats
        (.wire (encodeTaskRunHumanCursor ⟨[], [0xD83D, 0xDE00]⟩)) = .ok (some ⟨[], [0x1F600]⟩) := by
      decide +kernel
    rw [back ⟨[], [0xD83D, 0xDE00]⟩ (by decide +kernel)] at joined
    cases joined
  · rintro ⟨fuel, rows, done⟩
    have first : listHumanRequestsForPids smallPages Serde.noFloats longOwner [codes "p1"] none
        (some 1) .start = .ok ⟨longOwner.take 1,
          some (encodeTaskRunHumanCursor ⟨codes "2026-01-02", List.replicate 300 97⟩)⟩ := by
      decide +kernel
    have second : listHumanRequestsForPids smallPages Serde.noFloats longOwner [codes "p1"] none
        (some 1) (.wire (encodeTaskRunHumanCursor ⟨codes "2026-01-02", List.replicate 300 97⟩)) =
          .error cursorFault := by
      decide +kernel
    cases fuel with
    | zero => cases done
    | succ fuel =>
        rw [followPages, first] at done
        obtain ⟨more, later, -⟩ := Run.map_eq_ok.mp done
        cases fuel with
        | zero => cases later
        | succ fuel =>
            rw [followPages, second] at later
            cases later

end AgentLibOS.Storage
