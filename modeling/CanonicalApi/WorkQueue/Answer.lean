import CanonicalApi.WorkQueue
import Mathlib.Data.List.Forall2

/-!
# `CanonicalApi.WorkQueue.Answer`: what a tenant gets

The loop of `list_work_items` gives the items of all rows (`readWorkRows_ok`), or fails when one
of them is not an item (`readWorkRows_error`). `work_queue_answer` combines this with the order
of the statement.
-/

set_option autoImplicit false

namespace CanonicalApi

open Sql (orderBy)

section

variable [Postgres]

/-- A row with an id, a state and a title is an item. -/
theorem item?_eq_none_iff (row : WorkRow) :
    row.item? = none ↔ row.id = none ∨ row.state = none ∨ row.title = none := by
  obtain ⟨kind, id, parentId, state, title, dueAt, priority, action⟩ := row
  cases id with
  | none => simp [WorkRow.item?]
  | some id =>
    cases state with
    | none => simp [WorkRow.item?]
    | some state => cases title <;> simp [WorkRow.item?]

/-- The items of the rows. -/
def ItemsOf (rows : List WorkRow) (items : List WorkItem) : Prop :=
  List.Forall₂ (fun row item => row.item? = some item) rows items

/-- Every row of the answer can be read as an item. -/
theorem ItemsOf.item {rows : List WorkRow} {items : List WorkItem} (h : ItemsOf rows items)
    {row : WorkRow} (hmem : row ∈ rows) : ∃ item, row.item? = some item := by
  induction h with
  | nil => cases hmem
  | @cons first item rows items hitem _ ih =>
    rcases List.mem_cons.mp hmem with rfl | hmem
    · exact ⟨item, hitem⟩
    · exact ih hmem

/-- When every row is an item, the loop gives the items in order, and the count of the last
row. -/
theorem readWorkRows_ok {n : Nat} {rows : List WorkRow} {found : List WorkItem}
    (h : ItemsOf rows found) (total : Nat) (items : List WorkItem) :
    readWorkRows (rows.map fun row => (row, (n : Int))) total items =
      .ok (if rows = [] then total else n, items ++ found) := by
  induction h generalizing total items with
  | nil => simp [readWorkRows]
  | @cons row item rows found hitem hrest ih =>
    have hcount : ¬ (n : Int) < 0 := by omega
    simp only [List.map_cons, readWorkRows, if_neg hcount, hitem, Int.toNat_natCast]
    rw [ih]
    simp

/-- A row that is not an item makes the loop fail. -/
theorem readWorkRows_error {n : Nat} {rows : List WorkRow} {row : WorkRow} (hmem : row ∈ rows)
    (hnone : row.item? = none) (total : Nat) (items : List WorkItem) :
    readWorkRows (rows.map fun row => (row, (n : Int))) total items = .error workQueueError := by
  have hcount : ¬ (n : Int) < 0 := by omega
  induction rows generalizing total items with
  | nil => cases hmem
  | cons first rows ih =>
    simp only [List.map_cons, readWorkRows, if_neg hcount]
    cases hitem : first.item? with
    | none => rfl
    | some item =>
      rcases List.mem_cons.mp hmem with heq | hmem
      · rw [← heq, hnone] at hitem
        cases hitem
      · exact ih hmem _ _

omit [Postgres] in
/-- Either a row has no image, or there is a list of the images. -/
theorem exists_forall₂_or {α β : Type} (f : α → Option β) (l : List α) :
    (∃ a ∈ l, f a = none) ∨ ∃ bs, List.Forall₂ (fun a b => f a = some b) l bs := by
  induction l with
  | nil => exact .inr ⟨[], .nil⟩
  | cons a l ih =>
    cases ha : f a with
    | none => exact .inl ⟨a, List.mem_cons_self, ha⟩
    | some b =>
      rcases ih with ⟨a', hmem, hnone⟩ | ⟨bs, hbs⟩
      · exact .inl ⟨a', List.mem_cons_of_mem a hmem, hnone⟩
      · exact .inr ⟨b :: bs, .cons ha hbs⟩

variable (tables : GrcTables) (clock : WorkClock) (tenantId : Uuid)

/-- The rows of the tenant in the order of the statement. -/
def orderedWork : List WorkRow := orderBy WorkRow.orderKey (workItems tables clock tenantId)

/-- The loop over the rows of the statement, when they are all items. -/
theorem readWorkRows_items {items : List WorkItem}
    (h : ItemsOf ((orderedWork tables clock tenantId).take 500) items) :
    readWorkRows (workQueueRows tables clock tenantId) 0 [] =
      .ok ((workItems tables clock tenantId).length, items) := by
  have htotal : (if (orderedWork tables clock tenantId).take 500 = [] then 0
      else (workItems tables clock tenantId).length) =
        (workItems tables clock tenantId).length := by
    split
    · next hnil =>
      have hzero := congrArg List.length hnil
      rw [List.length_take, orderedWork, Sql.length_orderBy, List.length_nil] at hzero
      omega
    · rfl
  refine (readWorkRows_ok h 0 []).trans ?_
  rw [htotal, List.nil_append]

variable {tables clock tenantId} in
/-- The answer has all items, or the first 500 of them. -/
theorem ItemsOf.length_eq {items : List WorkItem}
    (h : ItemsOf ((orderedWork tables clock tenantId).take 500) items) :
    items.length = min 500 (workItems tables clock tenantId).length := by
  rw [← List.Forall₂.length_eq h, List.length_take, orderedWork, Sql.length_orderBy]

/-- One of the first rows is not an item. -/
def LacksValue : Prop :=
  ∃ row ∈ (orderedWork tables clock tenantId).take 500,
    row.id = none ∨ row.state = none ∨ row.title = none

variable {tables clock tenantId}

/-- No row lacks a value when all of them are items. -/
theorem ItemsOf.not_lacksValue {items : List WorkItem}
    (h : ItemsOf ((orderedWork tables clock tenantId).take 500) items) :
    ¬ LacksValue tables clock tenantId := by
  rintro ⟨row, hmem, hmissing⟩
  obtain ⟨item, hitem⟩ := h.item hmem
  rw [(item?_eq_none_iff row).mpr hmissing] at hitem
  cases hitem

variable [GrcSchema] {calls : WorkQueueCalls}

/-- The calls succeed, no product is out of range, and the rows are items. -/
theorem listWorkItems_ok (hcalls : calls.succeed = true)
    (hscores : scoreOverflows tables clock tenantId = false) {items : List WorkItem}
    (h : ItemsOf ((orderedWork tables clock tenantId).take 500) items) :
    listWorkItems tenantId calls (some (.postgres tables clock)) = .ok {
      schemaVersion := "canonical.grc.work-queue.v1"
      tenantId
      totalMatching := (workItems tables clock tenantId).length
      returned := min 500 (workItems tables clock tenantId).length
      truncated := 500 < (workItems tables clock tenantId).length
      items } := by
  have htruncated : decide (min 500 (workItems tables clock tenantId).length <
      (workItems tables clock tenantId).length) =
        decide (500 < (workItems tables clock tenantId).length) := by
    rw [decide_eq_decide]
    omega
  obtain ⟨⟨⟨hbegin, hset⟩, hquery⟩, hcommit⟩ : ((calls.begin = true ∧ calls.setTenant = true) ∧
      calls.query = true) ∧ calls.commit = true := by
    simpa only [WorkQueueCalls.succeed, Bool.and_eq_true] using hcalls
  simp only [listWorkItems, hbegin, hset, hquery, hcommit, workQueueStatement, hscores,
    Outcome.okOr_some, Outcome.ok_bind, readWorkRows_items tables clock tenantId h, h.length_eq,
    htruncated, Bool.true_eq_false, Bool.false_eq_true, or_self, if_false]
  rfl

/-- A call fails, a product is out of range, or a row lacks a value. All errors are the same. -/
theorem listWorkItems_error (h : calls.succeed = false ∨
      scoreOverflows tables clock tenantId = true ∨ LacksValue tables clock tenantId) :
    listWorkItems tenantId calls (some (.postgres tables clock)) = .error workQueueError := by
  show (if _ then _ else _) = _
  by_cases hcalls : calls.begin = false ∨ calls.setTenant = false ∨ calls.query = false
  · exact if_pos hcalls
  · rw [if_neg hcalls]
    rw [not_or, not_or, Bool.not_eq_false, Bool.not_eq_false, Bool.not_eq_false] at hcalls
    obtain ⟨hbegin, hset, hquery⟩ := hcalls
    cases hscores : scoreOverflows tables clock tenantId with
    | true =>
      rw [workQueueStatement, if_pos hscores]
      rfl
    | false =>
      rw [workQueueStatement, if_neg (by rw [hscores]; decide), Outcome.okOr_some,
        Outcome.ok_bind]
      rcases exists_forall₂_or WorkRow.item? ((orderedWork tables clock tenantId).take 500) with
        ⟨row, hmem, hnone⟩ | ⟨items, hitems⟩
      · have hrows : readWorkRows (workQueueRows tables clock tenantId) 0 [] =
            .error workQueueError := readWorkRows_error hmem hnone 0 []
        rw [hrows]
        rfl
      · -- Only the commit is left to fail.
        have hcommit : calls.commit = false := by
          rcases h with hcalls | hoverflow | hlacks
          · simpa [WorkQueueCalls.succeed, hbegin, hset, hquery] using hcalls
          · rw [hscores] at hoverflow
            cases hoverflow
          · exact absurd hlacks (ItemsOf.not_lacksValue hitems)
        rw [readWorkRows_items tables clock tenantId hitems, Outcome.ok_bind]
        exact if_pos hcommit

variable (tables clock tenantId calls)

/-- The answer of `list_work_items`, whatever the calls of the database do.

- It is an error, always the same one, exactly when a call fails, a product of scores is out of
  range, or one of the first 500 rows has no id, no state or no title.
- Otherwise it has the items of these rows in their order. The count is that of all rows, and
  the answer is truncated exactly when there are more than 500.
- The order has all the rows, and its key does not descend. So no row that is left out has a
  higher priority than one that is returned. -/
theorem work_queue_answer :
    (∀ error, listWorkItems tenantId calls (some (.postgres tables clock)) = .error error ↔
      error = workQueueError ∧ (calls.succeed = false ∨
        scoreOverflows tables clock tenantId = true ∨ LacksValue tables clock tenantId)) ∧
    (∀ response, listWorkItems tenantId calls (some (.postgres tables clock)) = .ok response ↔
      calls.succeed = true ∧ scoreOverflows tables clock tenantId = false ∧
      ItemsOf ((orderedWork tables clock tenantId).take 500) response.items ∧
      response.schemaVersion = "canonical.grc.work-queue.v1" ∧ response.tenantId = tenantId ∧
      response.totalMatching = (workItems tables clock tenantId).length ∧
      response.returned = response.items.length ∧
      (response.truncated = true ↔ 500 < response.totalMatching)) ∧
    (orderedWork tables clock tenantId).Perm (workItems tables clock tenantId) ∧
    (orderedWork tables clock tenantId).Pairwise (fun row row' =>
      row.orderKey ≤ row'.orderKey) ∧
    ∀ row ∈ (orderedWork tables clock tenantId).take 500,
      ∀ row' ∈ (orderedWork tables clock tenantId).drop 500,
        priorityRank row.priority ≤ priorityRank row'.priority := by
  -- The request fails for one of three reasons, or every row of the page becomes an item.
  have hcases : (calls.succeed = false ∨ scoreOverflows tables clock tenantId = true ∨
      LacksValue tables clock tenantId) ∨
      calls.succeed = true ∧ scoreOverflows tables clock tenantId = false ∧
        ∃ items, ItemsOf ((orderedWork tables clock tenantId).take 500) items := by
    cases calls.succeed with
    | false => exact .inl (.inl rfl)
    | true =>
      cases scoreOverflows tables clock tenantId with
      | true => exact .inl (.inr (.inl rfl))
      | false =>
        rcases exists_forall₂_or WorkRow.item? ((orderedWork tables clock tenantId).take 500) with
          ⟨row, hmem, hnone⟩ | hitems
        · exact .inl (.inr (.inr ⟨row, hmem, (item?_eq_none_iff row).mp hnone⟩))
        · exact .inr ⟨rfl, rfl, hitems⟩
  refine ⟨?_, ?_, List.mergeSort_perm _ _, Sql.orderBy_pairwise, ?_⟩
  · intro error
    constructor
    · intro h
      rcases hcases with hfails | ⟨hcalls, hscores, items, hitems⟩
      · rw [listWorkItems_error hfails] at h
        cases h
        exact ⟨rfl, hfails⟩
      · rw [listWorkItems_ok hcalls hscores hitems] at h
        cases h
    · intro ⟨heq, hfails⟩
      rw [heq, listWorkItems_error hfails]
  · intro response
    constructor
    · intro h
      rcases hcases with hfails | ⟨hcalls, hscores, items, hitems⟩
      · rw [listWorkItems_error hfails] at h
        cases h
      · rw [listWorkItems_ok hcalls hscores hitems] at h
        cases h
        exact ⟨hcalls, hscores, hitems, rfl, rfl, rfl, hitems.length_eq.symm,
          decide_eq_true_iff⟩
    · intro ⟨hcalls, hscores, hitems, hschema, htenant, htotal, hreturned, htruncated⟩
      rw [listWorkItems_ok hcalls hscores hitems]
      obtain ⟨schemaVersion, tenant, total, returned, truncated, items⟩ := response
      simp only at hitems hschema htenant htotal hreturned htruncated
      subst hschema htenant htotal
      rw [hitems.length_eq] at hreturned
      subst hreturned
      congr 2
      rw [Bool.eq_iff_iff, decide_eq_true_eq, htruncated]
  · intro row hmem row' hmem'
    -- The priority is the first component of the key, so it is in order as well.
    have hle : row.orderKey ≤ row'.orderKey := Sql.take_orderBy_le hmem hmem'
    exact (Prod.Lex.monotone_fst _ _ hle)

end

end CanonicalApi
