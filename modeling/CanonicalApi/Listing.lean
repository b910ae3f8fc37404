import CanonicalApi.Contract
import CanonicalApi.Lib.Pagination
import CanonicalApi.Memory.Consistency
import CanonicalApi.Quote.EventLog
import Mathlib.Data.List.Pairwise
import Mathlib.Data.List.Perm.Subperm
import Mathlib.Data.Prod.Lex
import Mathlib.Data.String.Basic

/-!
# `CanonicalApi.Listing`: the pages of `list_quotes`

`list_quotes` of `lib.rs` cuts a page in three places: the storage is asked for one row more
than the limit, after a cursor that is the id of a quote, and `quote_list_response` drops this
row again and names the last one that is left. Without a database the handler sorts the values
of its map and skips to the cursor; with one the statement compares the times and the ids.

A `Listing` is one of the two, and `Serves` says what one page of it is: a page of
`Pagination` over the quotes of the owner. `PageRun` is a client that follows `nextCursor` while
the service goes on, and `Listing.paginates` is what it sees.

The map and the table give their rows in any order (`Enumerates`).
-/

set_option autoImplicit false

namespace CanonicalApi

open Transaction Transition
open Outcome (Succeeds)
open Pagination (page last? remaining descending walk)

/-- `Uuid` compares the bytes in order, and so does PostgreSQL. -/
instance : LinearOrder Uuid where
  le id id' := id.bits.toNat ≤ id'.bits.toNat
  le_refl id := Nat.le_refl id.bits.toNat
  le_trans _ _ _ h h' := Nat.le_trans h h'
  le_total id id' := Nat.le_total id.bits.toNat id'.bits.toNat
  le_antisymm id id' h h' := by
    cases id
    cases id'
    exact congrArg Uuid.mk (BitVec.eq_of_toNat_eq (Nat.le_antisymm h h'))
  toDecidableLE id id' := Nat.decLe id.bits.toNat id'.bits.toNat
  toDecidableEq := inferInstance

/-- `canonical_lib::interfaces::QuoteListQuery`. -/
structure QuoteListQuery where
  cursor : Option String
  limit : Option Int

/-- The limit of a page. -/
def QuoteListQuery.pageLimit (query : QuoteListQuery) : Nat :=
  (max 1 (min (query.limit.getD 25) 100)).toNat

/-- A page has between 1 and 100 rows, whatever limit the request asks for. -/
theorem QuoteListQuery.pageLimit_bounds (query : QuoteListQuery) :
    0 < query.pageLimit ∧ query.pageLimit ≤ 100 := by
  unfold pageLimit
  omega

/-- The values of a table, in any order. -/
def Enumerates {ρ : Type} (rows : List ρ) (table : Uuid → Option ρ) : Prop :=
  ∃ ids : List Uuid, ids.Nodup ∧ (∀ id, id ∈ ids ↔ table id ≠ none) ∧ rows = ids.filterMap table

section

variable [UuidCrate]

/-- The cursor of a query. A text that is no UUID is an error; one that names no quote of the
subject is not, at this point. -/
def QuoteListQuery.parseCursor (query : QuoteListQuery) : Except ApiError (Option Uuid) :=
  match query.cursor with
  | some text =>
      match UuidCrate.parseStr text with
      | some cursor => .ok (some cursor)
      | none => .error (.badRequest "invalid_request" "cursor is invalid")
  | none => .ok none

variable [CanonicalLib]

/-- `list_quotes` without a database, where the map gives its values as `values`. Texts compare
by their bytes, which is the order of their characters. -/
def listQuotesInMemory (values : List QuoteRecord) (subject : String) (query : QuoteListQuery) :
    Except ApiError QuoteListResponse := do
  let limit := query.pageLimit
  let cursor ← query.parseCursor
  let records := values.filter fun record => record.ownerSubject = subject
  let records := records.mergeSort fun left right =>
    toLex (right.createdAt, right.quoteId) ≤ toLex (left.createdAt, left.quoteId)
  let records :=
    match cursor with
    | some cursor =>
        match records.findIdx? fun (record : QuoteRecord) => record.quoteId = cursor with
        | some position => records.drop (position + 1)
        | none => []
    | none => records
  quoteListResponse (records.take (limit + 1)) limit

/-- `list_quotes` of `persistence.rs`, where the table has the rows `rows`. Without a row for the
cursor the comparison is null, and no row is selected. -/
def listQuotes [Postgres] (rows : List QuoteRow) (subject : String) (limit : Nat)
    (cursor : Option Uuid) : Except StoreError (List QuoteRecord) :=
  let bounded := max 1 (min limit 101)
  let selected :=
    match cursor with
    | some cursor =>
        match rows.find? fun (row : QuoteRow) =>
            row.ownerSubject = subject ∧ row.id = cursor with
        | some ownerCursor => rows.filter fun (row : QuoteRow) => row.ownerSubject = subject ∧
            toLex (row.createdAt, row.id) < toLex (ownerCursor.createdAt, ownerCursor.id)
        | none => []
    | none => rows.filter fun (row : QuoteRow) => row.ownerSubject = subject
  let selected := (selected.mergeSort fun row row' =>
    toLex (row'.createdAt, row'.id) ≤ toLex (row.createdAt, row.id)).take bounded
  selected.mapM quoteFromRow

/-- `list_quotes` with a database. -/
def listQuotesInDatabase [Postgres] (rows : List QuoteRow) (subject : String)
    (query : QuoteListQuery) : Except ApiError QuoteListResponse := do
  let limit := query.pageLimit
  let cursor ← query.parseCursor
  let records ← (listQuotes rows subject (limit + 1) cursor).mapError mapStoreError
  quoteListResponse records limit

end

/-! ### Listings -/

/-- A page request: the rows of the table at this time, and the limit. -/
structure Visit (ρ : Type) where
  rows : List ρ
  limit : Option Int

section

variable [CanonicalLib]

/-- How quotes are stored and listed. -/
structure Listing (ρ τ : Type) where
  id : ρ → Uuid
  owner : ρ → String
  created : ρ → τ
  render : ρ → Except ApiError QuoteSummary
  answer : List ρ → String → QuoteListQuery → Except ApiError QuoteListResponse

/-- The listing without a database. -/
@[reducible] def memoryListing [UuidCrate] : Listing QuoteRecord String where
  id := QuoteRecord.quoteId
  owner := QuoteRecord.ownerSubject
  created := QuoteRecord.createdAt
  render := quoteSummary
  answer := listQuotesInMemory

/-- The listing with a database. -/
@[reducible] def databaseListing [UuidCrate] [Postgres] : Listing QuoteRow Int where
  id := QuoteRow.id
  owner := QuoteRow.ownerSubject
  created := QuoteRow.createdAt
  render row := (quoteFromRow row).mapError mapStoreError >>= quoteSummary
  answer := listQuotesInDatabase

/-- The pages that a client gets when it follows `nextCursor`, and whether it got the last one.
Each visit has its own limit and finds the rows as they are then, so quotes may come and go on the
way. -/
def followPages {ρ : Type} (answer : List ρ → QuoteListQuery → Except ApiError QuoteListResponse) :
    Option String → List (Visit ρ) → Except ApiError (List QuoteSummary × Bool)
  | _, [] => .ok ([], false)
  | cursor, visit :: visits => do
      let response ← answer visit.rows { cursor, limit := visit.limit }
      match response.nextCursor with
      | none => return (response.quotes, true)
      | some next => do
          let (quotes, ended) ← followPages answer (some next) visits
          return (response.quotes ++ quotes, ended)

namespace Listing

variable {ρ τ : Type} [LinearOrder τ] (L : Listing ρ τ)

/-- The order of a listing. -/
def key (row : ρ) : τ ×ₗ Uuid := toLex (L.created row, L.id row)

/-- The rows of an owner. -/
def own (subject : String) (rows : List ρ) : List ρ :=
  rows.filter fun row => L.owner row = subject

/-- A page request after the row `cursor?` is answered with a page: the rows behind that one, up to
the limit, and the last of them as the next cursor. Both storage modes satisfy it. -/
def Serves : Prop :=
  ∀ rows subject query (cursor? : Option ρ),
    ((L.own subject rows).map L.id).Nodup →
    (∀ row ∈ L.own subject rows, Succeeds (L.render row)) →
    query.cursor = cursor?.map (fun row => (L.id row).toText) →
    (∀ row ∈ cursor?, row ∈ L.own subject rows) →
    ∃ quotes,
      (page L.key (cursor?.map L.key) (L.own subject rows) query.pageLimit).mapM L.render
        = .ok quotes ∧
      L.answer rows subject query = .ok {
        quotes
        nextCursor := (last? L.key (cursor?.map L.key) (L.own subject rows) query.pageLimit).map
          fun row => (L.id row).toText }

variable {L}

omit [CanonicalLib] [LinearOrder τ] in
/-- Rows with different ids have different keys. -/
theorem keys_nodup {rows : List ρ} (h : (rows.map L.id).Nodup) : (rows.map L.key).Nodup := by
  rw [List.nodup_iff_pairwise_ne, List.pairwise_map] at h ⊢
  exact h.imp fun hne heq => hne (congrArg (fun k => (ofLex k).2) heq)

end Listing

/-! ### One page -/

/-- `quote_list_response` on one row more than the limit. -/
theorem quoteListResponse_take (records : List QuoteRecord) (limit : Nat) :
    quoteListResponse (records.take (limit + 1)) limit = do
      let quotes ← (records.take limit).mapM quoteSummary
      return {
        quotes
        nextCursor :=
          if limit < records.length then
            (records.take limit).getLast?.map fun record => record.quoteId.toText
          else none } := by
  unfold quoteListResponse
  -- One row more than the page was read exactly if there are that many.
  by_cases hlt : limit < records.length
  · have hlength : (records.take (limit + 1)).length > limit := by
      rw [List.length_take]
      omega
    have htake : (records.take (limit + 1)).take limit = records.take limit := by
      rw [List.take_take, Nat.min_eq_left (Nat.le_succ _)]
    simp only [if_pos hlength, if_pos hlt, htake]
  · have hlength : ¬ (records.take (limit + 1)).length > limit := by
      rw [List.length_take]
      omega
    have htake : records.take (limit + 1) = records.take limit := by
      rw [List.take_of_length_le (by omega), List.take_of_length_le (by omega)]
    rw [htake] at hlength ⊢
    simp only [if_neg hlength, if_neg hlt]

section

variable [UuidCrate]

omit [CanonicalLib] in
/-- The cursor of a page is the id of the last row of the page before. -/
theorem QuoteListQuery.parseCursor_eq
    (hparse : ∀ id : Uuid, UuidCrate.parseStr id.toText = some id) (query : QuoteListQuery)
    (cursor? : Option Uuid) (h : query.cursor = cursor?.map Uuid.toText) :
    query.parseCursor = .ok cursor? := by
  cases cursor? with
  | none =>
    rw [parseCursor, h]
    rfl
  | some cursor =>
    rw [parseCursor, h]
    show (match UuidCrate.parseStr cursor.toText with
      | some cursor => Except.ok (some cursor)
      | none => .error (ApiError.badRequest "invalid_request" "cursor is invalid")) = _
    rw [hparse]

/-- Without a database the rows after a cursor are skipped to. -/
theorem memoryListing_serves (hparse : ∀ id : Uuid, UuidCrate.parseStr id.toText = some id) :
    memoryListing.Serves := by
  intro rows subject query cursor? hids hrenders hcursor hmem
  have hkeys := Listing.keys_nodup hids
  have hparsed := query.parseCursor_eq hparse (cursor?.map memoryListing.id) (by
    rw [hcursor, Option.map_map]
    rfl)
  -- Skipping to the cursor leaves the rows behind it, because ids are distinct.
  have hskip : Pagination.skipTo memoryListing.id memoryListing.key
      (cursor?.map memoryListing.id) (memoryListing.own subject rows)
      = remaining memoryListing.key (cursor?.map memoryListing.key)
        (memoryListing.own subject rows) := by
    cases cursor? with
    | none => exact Pagination.remaining_none.symm
    | some row => exact Pagination.skipTo_of_mem hids hkeys (hmem row rfl)
  have hpage : ∀ row ∈ page memoryListing.key (cursor?.map memoryListing.key)
      (memoryListing.own subject rows) query.pageLimit, Succeeds (quoteSummary row) :=
    fun row hrow => hrenders row (Pagination.mem_of_mem_page hrow).1
  obtain ⟨quotes, hquotes⟩ := (Outcome.succeeds_mapM_iff _ _).mpr hpage
  refine ⟨quotes, hquotes, ?_⟩
  -- The code reads one row more than the limit, to see whether there is a next page.
  have hanswer : listQuotesInMemory rows subject query = quoteListResponse
      ((Pagination.skipTo memoryListing.id memoryListing.key (cursor?.map memoryListing.id)
        (memoryListing.own subject rows)).take (query.pageLimit + 1)) query.pageLimit := by
    unfold listQuotesInMemory
    rw [hparsed]
    cases cursor? with
    | none => rfl
    | some row => rfl
  show listQuotesInMemory rows subject query = _
  rw [hanswer]
  rw [hskip, quoteListResponse_take]
  show ((page memoryListing.key (cursor?.map memoryListing.key)
    (memoryListing.own subject rows) query.pageLimit).mapM quoteSummary >>= _) = _
  rw [hquotes]
  show Except.ok _ = _
  unfold last?
  split
  · simp only [page]
  · simp only [Option.map_none]

section

variable [Postgres]

omit [UuidCrate] in
/-- The rows after a cursor, when the keys are compared in the statement. -/
theorem listQuotes_eq (rows : List QuoteRow) (subject : String) {limit : Nat}
    (cursor? : Option Uuid) (hlimit : limit ≤ 100) :
    listQuotes rows subject (limit + 1) cursor? =
      ((Pagination.compareTo QuoteRow.id (fun row => toLex (row.createdAt, row.id)) cursor?
        (rows.filter fun row => row.ownerSubject = subject)).take (limit + 1)).mapM
          quoteFromRow := by
  -- The clamp of the statement does nothing to a limit that was clamped before.
  have hbounded : max 1 (min (limit + 1) 101) = limit + 1 := by omega
  unfold listQuotes
  rw [hbounded]
  cases cursor? with
  | none => rfl
  | some cursor =>
    -- The subselect of the cursor looks among the rows of the subject.
    have hfind : (rows.filter fun row => row.ownerSubject = subject).find?
        (fun row => row.id = cursor)
        = rows.find? fun row => row.ownerSubject = subject ∧ row.id = cursor := by
      rw [List.find?_filter]
      congr 1
      funext row
      simp
    unfold Pagination.compareTo
    dsimp only
    rw [hfind]
    cases rows.find? fun row => row.ownerSubject = subject ∧ row.id = cursor with
    | none =>
      dsimp only
      rw [List.mergeSort_nil]
    | some found =>
      dsimp only
      rw [List.filter_filter]
      congr 3
      apply List.filter_congr
      intro row _
      rw [Bool.decide_and, Bool.and_comm]

omit [UuidCrate] in
/-- A row that renders can be read, as a record with its id that renders to the same. -/
theorem renders_row {row : QuoteRow}
    (h : Succeeds ((quoteFromRow row).mapError mapStoreError >>= quoteSummary)) :
    ∃ record, quoteFromRow row = .ok record ∧ record.quoteId = row.id ∧
      ((quoteFromRow row).mapError mapStoreError >>= quoteSummary) = quoteSummary record := by
  cases hread : quoteFromRow row with
  | error error =>
    rw [hread] at h
    obtain ⟨_, h⟩ := h
    cases h
  | ok record => exact ⟨record, rfl, (quoteFromRow_cases hread).1, rfl⟩

omit [UuidCrate] in
/-- Rows that render can all be read. -/
theorem mapM_quoteFromRow {rows : List QuoteRow}
    (h : ∀ row ∈ rows, Succeeds ((quoteFromRow row).mapError mapStoreError >>= quoteSummary)) :
    ∃ records, rows.mapM quoteFromRow = .ok records ∧
      records.map QuoteRecord.quoteId = rows.map QuoteRow.id ∧
      ∀ n, (records.take n).mapM quoteSummary = (rows.take n).mapM fun row =>
        (quoteFromRow row).mapError mapStoreError >>= quoteSummary := by
  induction rows with
  | nil => exact ⟨[], rfl, rfl, fun n => by simp only [List.take_nil]; rfl⟩
  | cons row rows ih =>
    obtain ⟨record, hread, hid, hrender⟩ := renders_row (h row List.mem_cons_self)
    obtain ⟨records, hrecords, hids, htake⟩ := ih fun row hrow =>
      h row (List.mem_cons_of_mem _ hrow)
    refine ⟨record :: records, ?_, ?_, ?_⟩
    · rw [List.mapM_cons, hread, hrecords]
      rfl
    · rw [List.map_cons, List.map_cons, hid, hids]
    · intro n
      cases n with
      | zero => rfl
      | succ n =>
        rw [List.take_succ_cons, List.take_succ_cons, List.mapM_cons, List.mapM_cons, hrender,
          htake n]

/-- With a database the keys are compared with the key of the cursor. -/
theorem databaseListing_serves (hparse : ∀ id : Uuid, UuidCrate.parseStr id.toText = some id) :
    databaseListing.Serves := by
  intro rows subject query cursor? hids hrenders hcursor hmem
  have hkeys := Listing.keys_nodup hids
  obtain ⟨-, hlimit⟩ := query.pageLimit_bounds
  have hparsed := query.parseCursor_eq hparse (cursor?.map databaseListing.id) (by
    rw [hcursor, Option.map_map]
    rfl)
  -- The comparison with the row of the cursor, in the statement, selects the rows that remain after
  -- it.
  have hcompare : Pagination.compareTo databaseListing.id databaseListing.key
      (cursor?.map databaseListing.id) (databaseListing.own subject rows)
      = remaining databaseListing.key (cursor?.map databaseListing.key)
        (databaseListing.own subject rows) := by
    cases cursor? with
    | none => exact Pagination.remaining_none.symm
    | some row => exact Pagination.compareTo_of_mem hids hkeys (hmem row rfl)
  have hselected : ∀ row ∈ (remaining databaseListing.key (cursor?.map databaseListing.key)
      (databaseListing.own subject rows)).take (query.pageLimit + 1),
      Succeeds ((quoteFromRow row).mapError mapStoreError >>= quoteSummary) := fun row hrow =>
    hrenders row (Pagination.mem_of_mem_page hrow).1
  obtain ⟨records, hrecords, hrecordIds, htake⟩ := mapM_quoteFromRow hselected
  have hpage : ∀ row ∈ page databaseListing.key (cursor?.map databaseListing.key)
      (databaseListing.own subject rows) query.pageLimit,
      Succeeds ((quoteFromRow row).mapError mapStoreError >>= quoteSummary) :=
    fun row hrow => hrenders row (Pagination.mem_of_mem_page hrow).1
  obtain ⟨quotes, hquotes⟩ := (Outcome.succeeds_mapM_iff _ _).mpr hpage
  refine ⟨quotes, hquotes, ?_⟩
  -- The statement fetches one row more than the page shows, to see whether there is another page.
  have hlisted : listQuotes rows subject (query.pageLimit + 1) (cursor?.map databaseListing.id)
      = .ok records := by
    rw [listQuotes_eq rows subject _ hlimit, ← hrecords, ← hcompare]
    rfl
  have hanswer : listQuotesInDatabase rows subject query
      = quoteListResponse records query.pageLimit := by
    unfold listQuotesInDatabase
    rw [hparsed]
    show (listQuotes rows subject (query.pageLimit + 1)
      (cursor?.map databaseListing.id)).mapError mapStoreError >>= _ = _
    rw [hlisted]
    rfl
  have hlength := congrArg List.length hrecordIds
  rw [List.length_map, List.length_map, List.length_take] at hlength
  have hall : records.take (query.pageLimit + 1) = records :=
    List.take_of_length_le (by omega)
  have htakeRows : ((remaining databaseListing.key (cursor?.map databaseListing.key)
      (databaseListing.own subject rows)).take (query.pageLimit + 1)).take query.pageLimit
      = page databaseListing.key (cursor?.map databaseListing.key)
        (databaseListing.own subject rows) query.pageLimit := by
    rw [List.take_take, Nat.min_eq_left (Nat.le_succ _)]
    rfl
  have hsummaries : (records.take query.pageLimit).mapM quoteSummary = .ok quotes := by
    rw [htake, htakeRows]
    exact hquotes
  -- The cursor of the answer is the id of the last row that the page shows.
  have hlast : (records.take query.pageLimit).getLast?.map (fun record => record.quoteId.toText)
      = (page databaseListing.key (cursor?.map databaseListing.key)
        (databaseListing.own subject rows) query.pageLimit).getLast?.map
          fun row => row.id.toText := by
    have hids : (records.take query.pageLimit).map QuoteRecord.quoteId
        = (page databaseListing.key (cursor?.map databaseListing.key)
          (databaseListing.own subject rows) query.pageLimit).map QuoteRow.id := by
      rw [List.map_take, hrecordIds, ← List.map_take, htakeRows]
    have hlastId := congrArg (fun ids => ids.getLast?.map Uuid.toText) hids
    simp only [List.getLast?_map, Option.map_map] at hlastId
    exact hlastId
  show listQuotesInDatabase rows subject query = _
  rw [hanswer, ← hall, quoteListResponse_take, hsummaries]
  show Except.ok _ = _
  -- There is a next page just when the extra row was found.
  unfold last?
  by_cases hlt : query.pageLimit < (remaining databaseListing.key
      (cursor?.map databaseListing.key) (databaseListing.own subject rows)).length
  · rw [if_pos (by omega), if_pos hlt, hlast]
  · rw [if_neg (by omega), if_neg hlt, Option.map_none]

end

end

/-! ### The rows of a table -/

section

variable {ρ : Type} {rows : List ρ} {table : Uuid → Option ρ}

omit [CanonicalLib] in
/-- The rows of an enumeration are the values of the table. -/
theorem Enumerates.mem (h : Enumerates rows table) {row : ρ} :
    row ∈ rows ↔ ∃ id, table id = some row := by
  obtain ⟨ids, -, hids, rfl⟩ := h
  rw [List.mem_filterMap]
  constructor
  · rintro ⟨id, -, hrow⟩
    exact ⟨id, hrow⟩
  · rintro ⟨id, hrow⟩
    refine ⟨id, (hids id).mpr ?_, hrow⟩
    rw [hrow]
    exact Option.some_ne_none row

omit [CanonicalLib] in
/-- No two rows have one id. -/
theorem Enumerates.nodup (h : Enumerates rows table) {key : ρ → Uuid}
    (hkey : ∀ id row, table id = some row → key row = id) : (rows.map key).Nodup := by
  obtain ⟨ids, hnodup, hids, rfl⟩ := h
  have hmap : ∀ ids : List Uuid, ((ids.filterMap table).map key).Sublist ids := by
    intro ids
    induction ids with
    | nil => exact .slnil
    | cons id ids ih =>
      rw [List.filterMap_cons]
      cases hrow : table id with
      | none => exact ih.cons id
      | some row =>
        dsimp only
        rw [List.map_cons, hkey id row hrow]
        exact ih.cons_cons id
  exact hnodup.sublist (hmap ids)

omit [CanonicalLib] in
/-- The values of a table come in another order at most. -/
theorem Enumerates.perm {rows' : List ρ} (h : Enumerates rows table)
    (h' : Enumerates rows' table) : rows.Perm rows' := by
  obtain ⟨ids, hnodup, hids, rfl⟩ := h
  obtain ⟨ids', hnodup', hids', rfl⟩ := h'
  have hperm : ids.Perm ids' :=
    (List.perm_ext_iff_of_nodup hnodup hnodup').mpr fun id => (hids id).trans (hids' id).symm
  exact hperm.filterMap table

omit [CanonicalLib] in
/-- The values that a filter leaves are those of the filtered table. -/
theorem Enumerates.filter (h : Enumerates rows table) (p : ρ → Bool) :
    Enumerates (rows.filter p) fun id => (table id).filter p := by
  obtain ⟨ids, hnodup, hids, rfl⟩ := h
  -- The ids whose row passes the filter enumerate the filtered table.
  refine ⟨ids.filter fun id => ((table id).filter p).isSome, hnodup.filter _, fun id => ?_, ?_⟩
  · rw [List.mem_filter, hids id, Option.isSome_iff_ne_none]
    constructor
    · exact fun hboth => hboth.2
    · intro hsome
      refine ⟨fun hnone => hsome ?_, hsome⟩
      show (table id).filter p = none
      rw [hnone]
      rfl
  · rw [List.filter_filterMap, List.filterMap_filter]
    congr 1
    funext id
    cases (table id).filter p <;> rfl

end

/-! ### Following the cursor -/

namespace Listing

variable {ρ τ : Type} [LinearOrder τ] {L : Listing ρ τ} {subject : String}

omit [CanonicalLib] [LinearOrder τ] in
/-- The own rows are those with the subject as their owner. -/
theorem mem_own {rows : List ρ} {row : ρ} :
    row ∈ L.own subject rows ↔ row ∈ rows ∧ L.owner row = subject := by
  rw [own, List.mem_filter, decide_eq_true_eq]

/-- What `Pagination` sees of a page request. -/
def visited (L : Listing ρ τ) (subject : String) (visit : Visit ρ) : List ρ × Nat :=
  (L.own subject visit.rows, ({ cursor := none, limit := visit.limit } : QuoteListQuery).pageLimit)

omit [CanonicalLib] in
/-- The pages of a client are those of a walk, if quotes do not disappear between them. -/
theorem follow (hserves : L.Serves) (subject : String) : ∀ (visits : List (Visit ρ))
    (text : Option String) (cursor : Option (τ ×ₗ Uuid)),
    (∀ visit ∈ visits, ∃ row? : Option ρ, text = row?.map (fun row => (L.id row).toText) ∧
      cursor = row?.map L.key ∧ ∀ row ∈ row?, row ∈ L.own subject visit.rows) →
    (visits.Pairwise fun visit visit' => ∀ row ∈ L.own subject visit.rows,
      ∃ row' ∈ L.own subject visit'.rows, L.key row' = L.key row) →
    (∀ visit ∈ visits, ((L.own subject visit.rows).map L.id).Nodup) →
    (∀ visit ∈ visits, ∀ row ∈ L.own subject visit.rows, Succeeds (L.render row)) →
    ∃ quotes, followPages (fun rows query => L.answer rows subject query) text visits
        = .ok (quotes, (walk L.key cursor (visits.map (L.visited subject))).2) ∧
      (walk L.key cursor (visits.map (L.visited subject))).1.mapM L.render = .ok quotes := by
  intro visits
  -- The induction is on the visits, for every cursor. The cursor row is in the listing at the next
  -- visits too, with the same key, though the row itself may have changed.
  induction visits with
  | nil =>
    intro text cursor _ _ _ _
    exact ⟨[], rfl, rfl⟩
  | cons visit visits ih =>
    intro text cursor hcursor hstays hids hrenders
    obtain ⟨row?, rfl, rfl, hrow?⟩ := hcursor visit List.mem_cons_self
    obtain ⟨hstay, hstays⟩ := List.pairwise_cons.mp hstays
    obtain ⟨quotes, hquotes, hanswer⟩ := hserves visit.rows subject
      { cursor := row?.map fun row => (L.id row).toText, limit := visit.limit } row?
      (hids visit List.mem_cons_self) (hrenders visit List.mem_cons_self) rfl hrow?
    have hpage : (page L.key (row?.map L.key) (L.visited subject visit).1
        (L.visited subject visit).2).mapM L.render = .ok quotes := hquotes
    have hanswer : L.answer visit.rows subject
        { cursor := row?.map fun row => (L.id row).toText, limit := visit.limit } = .ok {
          quotes
          nextCursor := (last? L.key (row?.map L.key) (L.visited subject visit).1
            (L.visited subject visit).2).map fun row => (L.id row).toText } := hanswer
    rw [followPages, List.map_cons, walk, hanswer, Outcome.ok_bind]
    cases hlast : last? L.key (row?.map L.key) (L.visited subject visit).1
        (L.visited subject visit).2 with
    | none => exact ⟨quotes, rfl, hpage⟩
    | some last =>
      have hmem : last ∈ L.own subject visit.rows :=
        (Pagination.mem_of_mem_page (Pagination.mem_page_of_last? hlast)).1
      obtain ⟨rest, hrest, hrender⟩ := ih (some (L.id last).toText) (some (L.key last))
        (fun visit' hvisit' => by
          obtain ⟨row', hrow', hkey⟩ := hstay visit' hvisit' last hmem
          have hid : L.id row' = L.id last := congrArg (fun k => (ofLex k).2) hkey
          refine ⟨some row', ?_, ?_, ?_⟩
          · rw [Option.map_some, hid]
          · rw [Option.map_some, hkey]
          · intro row hrow
            cases hrow
            exact hrow') hstays
        (fun visit' hvisit' => hids visit' (List.mem_cons_of_mem _ hvisit'))
        (fun visit' hvisit' => hrenders visit' (List.mem_cons_of_mem _ hvisit'))
      refine ⟨quotes ++ rest, ?_, ?_⟩
      · show (followPages _ (some (L.id last).toText) visits >>= _) = _
        rw [hrest]
        rfl
      · rw [List.mapM_append, hpage, hrender]
        rfl

/-! ### Pages while the service goes on -/

/-- A client that asks for pages while the system `M` goes on, where `table` are the stored
quotes. The time of creation of a quote does not change, and every stored quote renders. -/
structure PageRun {σ α : Type} (L : Listing ρ τ) (M : System σ α) (table : σ → Uuid → Option ρ)
    (visits : List (σ × Visit ρ)) : Prop where
  reachable : ∀ visit ∈ visits, M.Reachable visit.1
  later : visits.Pairwise fun visit visit' => M.Steps visit.1 visit'.1
  rows : ∀ visit ∈ visits, Enumerates visit.2.rows (table visit.1)
  fixed : visits.Pairwise fun visit visit' => ∀ id row row', table visit.1 id = some row →
    table visit'.1 id = some row' → L.created row' = L.created row
  renders : ∀ visit ∈ visits, ∀ row ∈ visit.2.rows, Succeeds (L.render row)

/-- What the client sees: there are rows whose summaries it gets, in strictly descending order
and without a repetition, all of the owner and as they were stored at one of the pages.

- When it has got the last page, every quote of the owner that was stored at the first page is
  among them.
- It gets the last page after at most one page more than the owner has quotes, as long as no
  other ones are created. -/
def Paginates {σ : Type} (L : Listing ρ τ) (table : σ → Uuid → Option ρ) (subject : String)
    (visits : List (σ × Visit ρ)) : Prop :=
  ∃ (rows : List ρ) (quotes : List QuoteSummary) (ended : Bool),
    followPages (fun rows query => L.answer rows subject query) none (visits.map Prod.snd)
      = .ok (quotes, ended) ∧
    rows.mapM L.render = .ok quotes ∧
    (rows.Pairwise fun row row' => L.key row' < L.key row) ∧
    (rows.map L.id).Nodup ∧
    (∀ row ∈ rows, L.owner row = subject ∧ ∃ visit ∈ visits, table visit.1 (L.id row) = some row) ∧
    (ended = true → ∀ first ∈ visits.head?, ∀ id row, table first.1 id = some row →
      L.owner row = subject → id ∈ rows.map L.id) ∧
    ∀ ids : List Uuid,
      (∀ visit ∈ visits, ∀ id row, table visit.1 id = some row → L.owner row = subject →
        id ∈ ids) → ids.length < visits.length → ended = true

/-- What the system keeps: the ids and owners of quotes, and the quotes themselves. -/
structure Keeps {σ α : Type} (L : Listing ρ τ) (M : System σ α) (table : σ → Uuid → Option ρ) :
    Prop where
  id : ∀ s, M.Reachable s → ∀ id row, table s id = some row → L.id row = id
  kept : ∀ s s', M.Reachable s → M.Steps s s' → ∀ id row, table s id = some row →
    ∃ row', table s' id = some row' ∧ L.owner row' = L.owner row

section

variable {σ α : Type} {M : System σ α} {table : σ → Uuid → Option ρ}
  {visits : List (σ × Visit ρ)}

omit [CanonicalLib] [LinearOrder τ] in
/-- All pages at one moment. -/
theorem PageRun.of_rest {s : σ} {rows : List ρ} (hs : M.Reachable s)
    (hrows : Enumerates rows (table s)) (hrenders : ∀ row ∈ rows, Succeeds (L.render row))
    (h : ∀ visit ∈ visits, visit.1 = s ∧ visit.2.rows = rows) : L.PageRun M table visits where
  reachable visit hvisit := by
    rw [(h visit hvisit).1]
    exact hs
  later := List.pairwise_of_forall_mem_list fun visit hvisit visit' hvisit' => by
    rw [(h visit hvisit).1, (h visit' hvisit').1]
    exact .refl
  rows visit hvisit := by
    rw [(h visit hvisit).1, (h visit hvisit).2]
    exact hrows
  fixed := List.pairwise_of_forall_mem_list fun visit hvisit visit' hvisit' => by
    intro id row row' hrow hrow'
    rw [(h visit hvisit).1] at hrow
    rw [(h visit' hvisit').1, hrow] at hrow'
    cases hrow'
    rfl
  renders visit hvisit := by
    rw [(h visit hvisit).2]
    exact hrenders

omit [CanonicalLib] [LinearOrder τ] in
/-- A quote of the owner at one page is there at every later page, with the same key. -/
theorem PageRun.stays (h : L.PageRun M table visits) (hkeeps : L.Keeps M table)
    (subject : String) :
    visits.Pairwise fun visit visit' => ∀ row ∈ L.own subject visit.2.rows,
      ∃ row' ∈ L.own subject visit'.2.rows, L.key row' = L.key row := by
  have hall := (h.later.and h.fixed).imp_of_mem (S := fun visit visit' =>
    ∀ row ∈ L.own subject visit.2.rows, ∃ row' ∈ L.own subject visit'.2.rows,
      L.key row' = L.key row) ?_
  · exact hall
  intro visit visit' hvisit hvisit' ⟨hsteps, hfixed⟩ row hrow
  obtain ⟨hmem, howner⟩ := mem_own.mp hrow
  obtain ⟨id, hid⟩ := (h.rows visit hvisit).mem.mp hmem
  -- The row of this id is still there later, with the same owner and the same key.
  obtain ⟨row', hrow', howner'⟩ :=
    hkeeps.kept _ _ (h.reachable visit hvisit) hsteps id row hid
  refine ⟨row', mem_own.mpr ⟨(h.rows visit' hvisit').mem.mpr ⟨id, hrow'⟩, ?_⟩, ?_⟩
  · rw [howner', howner]
  · rw [key, key, hfixed id row row' hid hrow', hkeeps.id _ (h.reachable visit hvisit) id row hid,
      hkeeps.id _ (h.reachable visit' hvisit') id row' hrow']

omit [CanonicalLib] [LinearOrder τ] in
/-- The times of creation are the same at any two pages. -/
theorem PageRun.fixed_all (h : L.PageRun M table visits) :
    ∀ visit ∈ visits, ∀ visit' ∈ visits, ∀ id row row', table visit.1 id = some row →
      table visit'.1 id = some row' → L.created row' = L.created row := by
  intro visit hvisit visit' hvisit'
  refine h.fixed.forall_of_forall_of_flip ?_ ?_ hvisit hvisit'
  · intro visit _ id row row' hrow hrow'
    rw [hrow] at hrow'
    cases hrow'
    rfl
  · exact h.fixed.imp fun hfixed id row row' hrow hrow' => (hfixed id row' row hrow' hrow).symm

omit [CanonicalLib] in
/-- A client that follows the cursor sees what it should. -/
theorem paginates (hserves : L.Serves) (hkeeps : L.Keeps M table)
    (h : L.PageRun M table visits) (subject : String) : L.Paginates table subject visits := by
  have hstays := h.stays hkeeps subject
  have hids : ∀ visit ∈ visits.map Prod.snd, ((L.own subject visit.rows).map L.id).Nodup := by
    intro visit hvisit
    obtain ⟨v, hv, rfl⟩ := List.mem_map.mp hvisit
    have hnodup := (h.rows v hv).nodup (hkeeps.id _ (h.reachable v hv))
    exact hnodup.sublist (List.filter_sublist.map L.id)
  have hrenders : ∀ visit ∈ visits.map Prod.snd, ∀ row ∈ L.own subject visit.rows,
      Succeeds (L.render row) := by
    intro visit hvisit row hrow
    obtain ⟨v, hv, rfl⟩ := List.mem_map.mp hvisit
    exact h.renders v hv row (mem_own.mp hrow).1
  obtain ⟨quotes, hpages, hrender⟩ := follow hserves subject
    (visits.map Prod.snd) none none
    (fun _ _ => ⟨none, rfl, rfl, fun _ hrow => nomatch hrow⟩) (List.pairwise_map.mpr hstays) hids
    hrenders
  have hregular : Pagination.Regular L.key ((visits.map Prod.snd).map (L.visited subject)) := by
    intro visited hvisited
    obtain ⟨visit, hvisit, rfl⟩ := List.mem_map.mp hvisited
    exact ⟨keys_nodup (hids visit hvisit), (QuoteListQuery.pageLimit_bounds _).1⟩
  have hsorted := (Pagination.walk_pairwise hregular none).1
  have hmem : ∀ row ∈ (walk L.key none ((visits.map Prod.snd).map (L.visited subject))).1,
      L.owner row = subject ∧ ∃ visit ∈ visits, table visit.1 (L.id row) = some row := by
    intro row hrow
    obtain ⟨visited, hvisited, hrow⟩ := Pagination.mem_walk hrow
    rw [List.map_map] at hvisited
    obtain ⟨visit, hvisit, rfl⟩ := List.mem_map.mp hvisited
    obtain ⟨hstored, howner⟩ := mem_own.mp hrow
    obtain ⟨id, hid⟩ := (h.rows visit hvisit).mem.mp hstored
    refine ⟨howner, visit, hvisit, ?_⟩
    rw [hkeeps.id _ (h.reachable visit hvisit) id row hid]
    exact hid
  have hnodup : ((walk L.key none ((visits.map Prod.snd).map (L.visited subject))).1.map
      L.id).Nodup := by
    rw [List.nodup_iff_pairwise_ne, List.pairwise_map]
    refine hsorted.imp_of_mem fun hrow hrow' hlt heq => ?_
    -- Rows with one id have one key.
    obtain ⟨-, visit, hvisit, hstored⟩ := hmem _ hrow
    obtain ⟨-, visit', hvisit', hstored'⟩ := hmem _ hrow'
    rw [heq] at hstored
    have hkey := h.fixed_all visit hvisit visit' hvisit' _ _ _ hstored hstored'
    exact hlt.ne (congrArg toLex (Prod.ext hkey heq.symm))
  refine ⟨_, quotes, _, hpages, hrender, hsorted, hnodup, hmem, ?_, ?_⟩
  · intro hended first hfirst id row hrow howner
    obtain ⟨rest, rfl⟩ := List.head?_eq_some_iff.mp hfirst
    have hreachable := h.reachable first List.mem_cons_self
    have hown : row ∈ L.own subject first.2.rows :=
      mem_own.mpr ⟨(h.rows first List.mem_cons_self).mem.mpr ⟨id, hrow⟩, howner⟩
    have hkey : L.key row ∈ (walk L.key none
        (((first :: rest).map Prod.snd).map (L.visited subject))).1.map L.key := by
      refine Pagination.mem_walk_of_stays hregular ?_ (fun _ hc => nomatch hc) hended
      intro visited hvisited
      rw [List.map_map] at hvisited
      obtain ⟨visit, hvisit, rfl⟩ := List.mem_map.mp hvisited
      rcases List.mem_cons.mp hvisit with rfl | hvisit
      · exact List.mem_map_of_mem hown
      · obtain ⟨row', hrow', hkey⟩ := (List.pairwise_cons.mp hstays).1 visit hvisit row hown
        rw [← hkey]
        exact List.mem_map_of_mem hrow'
    obtain ⟨row', hrow', hkey⟩ := List.mem_map.mp hkey
    have hid : L.id row' = L.id row := congrArg (fun k => (ofLex k).2) hkey
    rw [← hkeeps.id _ hreachable id row hrow, ← hid]
    exact List.mem_map_of_mem hrow'
  · intro ids hids hlength
    by_contra hgoes
    have hle := Pagination.length_le_walk hregular (Bool.eq_false_iff.mpr hgoes)
    have hsubset : (walk L.key none ((visits.map Prod.snd).map (L.visited subject))).1.map L.id
        ⊆ ids := by
      intro id hid
      obtain ⟨row, hrow, rfl⟩ := List.mem_map.mp hid
      obtain ⟨howner, visit, hvisit, hstored⟩ := hmem row hrow
      exact hids visit hvisit _ row hstored howner
    have hcount := (List.subperm_of_subset hnodup hsubset).length_le
    rw [List.length_map] at hcount
    rw [List.length_map, List.length_map] at hle
    omega

end

end Listing

/-! ### The two listings -/

section

variable [UuidCrate]

/-- Without a database quotes keep their ids and owners. -/
theorem memoryListing_keeps :
    memoryListing.Keeps memoryTasks.system (fun s => s.shared.quotes) where
  id s hs id record hrecord := (consistent_reachable hs).keyed id record hrecord
  kept s s' hs hsteps id record hrecord := by
    have howned := hsteps.rel (R := fun s s' : memoryTasks.State => ∀ id subject,
      s.shared.Owned id subject → s'.shared.Owned id subject) (fun _ _ _ h => h)
      (fun _ _ _ h h' id subject howned => h' id subject (h id subject howned))
      (fun s a s' hs hstep id subject => owned_step (consistent_reachable hs) hstep) hs
    obtain ⟨record', hrecord', howner⟩ := howned id record.ownerSubject ⟨record, hrecord, rfl⟩
    exact ⟨record', hrecord', howner⟩

/-- With a database quotes keep their ids and owners. -/
theorem databaseListing_keeps [Postgres] :
    databaseListing.Keeps quoteService.interleaved (fun s id => s.db (.quote id)) := by
  have hrefines := Service.interleaved_refines_atomic quoteService_disciplined
  have hrows : ∀ s, quoteService.interleaved.Reachable s → ∀ id row,
      s.db (.quote id) = some row → row.id = id := fun s hs id row hrow =>
    ((lifecycle_reachable (hrefines.reachable hs)).rows id row hrow).1
  refine ⟨hrows, fun s s' hs hsteps => ?_⟩
  refine hsteps.rel (R := fun s s' : quoteService.State => ∀ id row, s.db (.quote id) = some row →
    ∃ row', s'.db (.quote id) = some row' ∧ row'.ownerSubject = row.ownerSubject)
    (fun _ _ row hrow => ⟨row, hrow, rfl⟩) ?_ ?_ hs
  · intro s₁ s₂ s₃ h₁ h₂ id row hrow
    obtain ⟨row₂, hrow₂, howner₂⟩ := h₁ id row hrow
    obtain ⟨row₃, hrow₃, howner₃⟩ := h₂ id row₂ hrow₂
    exact ⟨row₃, hrow₃, howner₃.trans howner₂⟩
  · -- A step changes one quote at most, and never its owner.
    intro s a s' hs hstep id row hrow
    have hc := lifecycle_reachable (hrefines.reachable hs)
    rcases step_logged hc (hrefines.step s a s' hs hstep) with hsame | ⟨new, event, hlogged⟩
    · exact ⟨row, (hsame id).1.trans hrow, rfl⟩
    · by_cases hid : id = new.id
      · rw [hid] at hrow ⊢
        exact ⟨new, hlogged.written, (hlogged.kept row hrow).symm⟩
      · exact ⟨row, (hlogged.others id hid).1.trans hrow, rfl⟩

/-- In both storage modes, a client that starts without a cursor and follows `nextCursor` gets
each quote of the owner that was stored at its first page exactly once, in strictly descending
order of the time of creation and the id as this mode compares them, and none twice and none of
another owner, whatever limits it asks for and whatever the service does between the pages. If no
quote is created meanwhile, it gets the last page. -/
theorem quote_pages [Postgres] (hparse : ∀ id : Uuid, UuidCrate.parseStr id.toText = some id)
    (subject : String) :
    (∀ visits, memoryListing.PageRun memoryTasks.system (fun s => s.shared.quotes) visits →
      memoryListing.Paginates (fun s => s.shared.quotes) subject visits) ∧
    ∀ visits, databaseListing.PageRun quoteService.interleaved (fun s id => s.db (.quote id))
        visits →
      databaseListing.Paginates (fun s id => s.db (.quote id)) subject visits :=
  ⟨fun _ h => Listing.paginates (memoryListing_serves hparse) memoryListing_keeps h subject,
    fun _ h => Listing.paginates (databaseListing_serves hparse) databaseListing_keeps h subject⟩

end

end

/-! ### Two quotes on two pages -/

section

/-- The value of a hexadecimal digit. -/
def hexValue (c : Char) : Nat := if c.toNat < 58 then c.toNat - 48 else c.toNat - 87

/-- A crate `uuid` that reads the hyphenated form. -/
@[reducible] def hyphenatedUuids : UuidCrate where
  parseStr text :=
    let digits := text.toList.filter fun c => c ≠ '-'
    let id : Uuid := ⟨BitVec.ofNat 128 (digits.foldl (fun n c => 16 * n + hexValue c) 0)⟩
    if id.toText = text then some id else none

/-- The value of a hexadecimal digit, which is never a hyphen. -/
theorem hexValue_hexDigit {n : Nat} (h : n < 16) :
    hexValue (JsonValue.hexDigit n) = n ∧ JsonValue.hexDigit n ≠ '-' := by
  revert n
  decide

/-- The first `k` digits are the first `k` digits. -/
theorem foldl_digits (n k : Nat) (hk : k ≤ 32) (hn : n < 16 ^ 32) :
    ((List.range k).map fun i => JsonValue.hexDigit (n / 16 ^ (31 - i) % 16)).foldl
      (fun n c => 16 * n + hexValue c) 0 = n / 16 ^ (32 - k) := by
  induction k with
  | zero => exact (Nat.div_eq_of_lt hn).symm
  | succ k ih =>
    rw [List.range_succ, List.map_append, List.foldl_append, ih (by omega)]
    have hpow : 32 - k = 31 - k + 1 := by omega
    have hsub : 32 - (k + 1) = 31 - k := by omega
    show 16 * (n / 16 ^ (32 - k)) + hexValue (JsonValue.hexDigit (n / 16 ^ (31 - k) % 16)) = _
    rw [(hexValue_hexDigit (Nat.mod_lt _ (by omega))).1, hpow, hsub, pow_succ,
      ← Nat.div_div_eq_div_mul]
    exact Nat.div_add_mod (n / 16 ^ (31 - k)) 16

/-- The hyphens are not digits. -/
theorem filter_toText (id : Uuid) : id.toText.toList.filter (fun c => c ≠ '-') = id.digits := by
  have hhex : ∀ c ∈ id.digits, c ≠ '-' := by
    intro c hc
    obtain ⟨i, -, rfl⟩ := List.mem_map.mp hc
    exact (hexValue_hexDigit (Nat.mod_lt _ (by omega))).2
  have hkeep : ∀ l : List Char, l ⊆ id.digits → l.filter (fun c => c ≠ '-') = l := by
    intro l hl
    rw [List.filter_eq_self]
    exact fun c hc => decide_eq_true (hhex c (hl hc))
  have htake : ∀ k m, ((id.digits.drop k).take m).filter (fun c => c ≠ '-')
      = (id.digits.drop k).take m := fun k m =>
    hkeep _ fun _ hc => List.drop_subset _ _ (List.take_subset _ _ hc)
  -- The five groups without the hyphens are consecutive pieces of the digits.
  have hsplit : ∀ k m, (id.digits.drop k).take m ++ id.digits.drop (k + m) = id.digits.drop k := by
    intro k m
    rw [← List.drop_drop, List.take_append_drop]
  have h0 := hsplit 0 8
  rw [List.drop_zero] at h0
  have hfilter0 : (id.digits.take 8).filter (fun c => c ≠ '-') = id.digits.take 8 :=
    hkeep _ (List.take_subset _ _)
  have hfilter20 : (id.digits.drop 20).filter (fun c => c ≠ '-') = id.digits.drop 20 :=
    hkeep _ (List.drop_subset _ _)
  have hhyphen : ∀ l : List Char, ('-' :: l).filter (fun c => c ≠ '-')
      = l.filter (fun c => c ≠ '-') := fun l => List.filter_cons_of_neg (by decide)
  rw [Uuid.toText, String.toList_ofList]
  simp only [List.append_assoc, List.cons_append, List.filter_append, hhyphen, hfilter0, htake,
    hfilter20]
  rw [hsplit 16 4, hsplit 12 4, hsplit 8 4, h0]

/-- What is written is read back. -/
theorem hyphenatedUuids_parse (id : Uuid) : hyphenatedUuids.parseStr id.toText = some id := by
  have hvalue : id.digits.foldl (fun n c => 16 * n + hexValue c) 0 = id.bits.toNat := by
    have hpow : 2 ^ 128 = 16 ^ 32 := by decide
    have hfold := foldl_digits id.bits.toNat 32 le_rfl (hpow ▸ id.bits.isLt)
    rw [Nat.sub_self, pow_zero, Nat.div_one] at hfold
    exact hfold
  have hid : (⟨BitVec.ofNat 128 id.bits.toNat⟩ : Uuid) = id := by
    rw [BitVec.ofNat_toNat, BitVec.setWidth_eq]
  show (if (⟨BitVec.ofNat 128 ((id.toText.toList.filter fun c => c ≠ '-').foldl
      (fun n c => 16 * n + hexValue c) 0)⟩ : Uuid).toText = id.toText
    then some (⟨BitVec.ofNat 128 ((id.toText.toList.filter fun c => c ≠ '-').foldl
      (fun n c => 16 * n + hexValue c) 0)⟩ : Uuid) else none) = some id
  rw [filter_toText, hvalue, hid, if_pos rfl]

attribute [local instance] fixtureLib openServer hyphenatedUuids

/-- Two creates with different keys. -/
def testTwoQuotes : List memoryTasks.Action :=
  [.arrive 0 (.handler (memoryCreate testQuote) .lookup), testPoll 0 9, testPoll 0 9,
    testPoll 0 2,
    .arrive 1 (.handler { memoryCreate ⟨8⟩ with idempotencyKey := "quote-key-0002" } .lookup),
    testPoll 1 9, testPoll 1 9, testPoll 1 3]

/-- A queued quote renders. -/
theorem quoteSummary_queued {record : QuoteRecord} (h : record.status = "queued") :
    Succeeds (quoteSummary record) := by
  unfold quoteSummary detailStatus quoteEstimate
  rw [h]
  exact ⟨_, rfl⟩

/-- The ids of the two quotes. -/
def testIds : List Uuid := [testQuote, ⟨8⟩]

/-- A table with exactly these two quotes. -/
theorem enumerates_testIds {ρ : Type} {table : Uuid → Option ρ} {first second : ρ}
    (hfirst : table testQuote = some first) (hsecond : table ⟨8⟩ = some second)
    (hids : ∀ id, table id ≠ none → id ∈ testIds) : Enumerates [first, second] table := by
  refine ⟨testIds, by decide, fun id => ⟨fun hid => ?_, hids id⟩, ?_⟩
  · rcases List.mem_cons.mp hid with rfl | hid
    · rw [hfirst]
      exact Option.some_ne_none first
    · rw [List.mem_singleton.mp hid, hsecond]
      exact Option.some_ne_none second
  · rw [testIds, List.filterMap_cons_some hfirst, List.filterMap_cons_some hsecond,
      List.filterMap_nil]

/-- The two quotes without a database. -/
theorem twoQuotes_memory : ∃ s first second, memoryTasks.system.Reachable s ∧
    Enumerates [first, second] s.shared.quotes ∧
    ∀ record ∈ [first, second], Succeeds (quoteSummary record) := by
  -- The run is evaluated, and only the values that the statement reads are compared.
  have hrun : (System.run memoryTasks.next memoryTasks.initial testTwoQuotes).map (fun s =>
      (s.shared.issued == [⟨8⟩, testQuote]) &&
        (((s.shared.quotes testQuote).map QuoteRecord.status == some "queued") &&
          ((s.shared.quotes ⟨8⟩).map QuoteRecord.status == some "queued"))) = some true := by
    decide
  obtain ⟨s, hs, hview⟩ := System.exists_reachable_of_run _ _ hrun
  rw [Bool.and_eq_true, Bool.and_eq_true, beq_iff_eq, beq_iff_eq, beq_iff_eq] at hview
  obtain ⟨hissued, hfirst, hsecond⟩ := hview
  obtain ⟨first, hfirst, hqueued⟩ := Option.map_eq_some_iff.mp hfirst
  obtain ⟨second, hsecond, hqueued'⟩ := Option.map_eq_some_iff.mp hsecond
  refine ⟨s, first, second, hs, enumerates_testIds hfirst hsecond fun id hstored => ?_,
    fun record hrecord => ?_⟩
  · obtain ⟨record, hrecord⟩ := Option.ne_none_iff_exists'.mp hstored
    have hissue := (consistent_reachable hs).issued id record hrecord
    rw [hissued] at hissue
    simpa [testIds, or_comm] using hissue
  · rcases List.mem_cons.mp hrecord with rfl | hrecord
    · exact quoteSummary_queued hqueued
    · rw [List.mem_singleton.mp hrecord]
      exact quoteSummary_queued hqueued'

/-- Two creates with different keys, in the database. -/
def testTwoCreates : List quoteService.Action :=
  .arrive 0 (.requested testCreate) :: testNumbered 0 7 1 ++
    .arrive 1 (.requested { testCreate with
      idempotencyKey := "quote-key-0002"
      mutation := .create { applicationMarkdown := "Canonical Plus", wire := fixtureRequest }
        "2026-09-09T05:00:00Z" ⟨8⟩ }) :: testNumbered 1 7 2

/-- The two quotes with a database. -/
theorem twoQuotes_database : ∃ s first second, quoteService.interleaved.Reachable s ∧
    Enumerates [first, second] (fun id => s.db (.quote id)) ∧
    ∀ row ∈ [first, second], Succeeds (databaseListing.render row) := by
  have hrun : (System.run (System.guarded (fun _ a => ∀ fresh ∈ created? a, fresh ∈ testIds)
      quoteService.next) quoteService.initial testTwoCreates).map (fun s =>
        ((s.db (.quote testQuote)).map (fun row => (databaseListing.render row).isOk) ==
          some true) &&
        ((s.db (.quote ⟨8⟩)).map (fun row => (databaseListing.render row).isOk) == some true)) =
      some true := by
    decide
  obtain ⟨s, hs, hview⟩ := System.exists_reachable_of_run _ _ hrun
  have hs := System.ReachableWith.of_guarded hs
  rw [Bool.and_eq_true, beq_iff_eq, beq_iff_eq] at hview
  obtain ⟨first, hfirst, hrenders⟩ := Option.map_eq_some_iff.mp hview.1
  obtain ⟨second, hsecond, hrenders'⟩ := Option.map_eq_some_iff.mp hview.2
  have hok : ∀ row, (databaseListing.render row).isOk = true →
      Succeeds (databaseListing.render row) := by
    intro row hisOk
    cases hresult : databaseListing.render row with
    | ok summary => exact ⟨summary, rfl⟩
    | error error =>
      rw [hresult] at hisOk
      cases hisOk
  refine ⟨s, first, second, hs.reachable, enumerates_testIds hfirst hsecond
    fun id hstored => created_of_reachable hs hstored, fun row hrow => ?_⟩
  rcases List.mem_cons.mp hrow with rfl | hrow
  · exact hok row hrenders
  · rw [List.mem_singleton.mp hrow]
    exact hok second hrenders'

/-- In both modes, two creates store two quotes at the same time. They are listed on two pages with
one quote each. -/
theorem quote_pages_test :
    (∃ s rows, memoryTasks.system.Reachable s ∧ rows.length = 2 ∧
      memoryListing.Paginates (fun s : memoryTasks.State => s.shared.quotes) "customer-1"
        [(s, ⟨rows, some 1⟩), (s, ⟨rows, some 1⟩), (s, ⟨rows, none⟩)]) ∧
    ∃ s rows, quoteService.interleaved.Reachable s ∧ rows.length = 2 ∧
      databaseListing.Paginates (fun (s : quoteService.State) id => s.db (.quote id)) "customer-1"
        [(s, ⟨rows, some 1⟩), (s, ⟨rows, some 1⟩), (s, ⟨rows, none⟩)] := by
  obtain ⟨hmemory, hdatabase⟩ := quote_pages hyphenatedUuids_parse "customer-1"
  constructor
  · obtain ⟨s, first, second, hs, hrows, hrenders⟩ := twoQuotes_memory
    exact ⟨s, [first, second], hs, rfl,
      hmemory _ (Listing.PageRun.of_rest hs hrows hrenders (by simp))⟩
  · obtain ⟨s, first, second, hs, hrows, hrenders⟩ := twoQuotes_database
    exact ⟨s, [first, second], hs, rfl,
      hdatabase _ (Listing.PageRun.of_rest hs hrows hrenders (by simp))⟩

end

end CanonicalApi
