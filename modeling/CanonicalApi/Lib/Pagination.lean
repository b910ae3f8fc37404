import Mathlib.Data.List.Nodup
import Mathlib.Order.Lattice

/-!
# `CanonicalApi.Lib.Pagination`: pages of a growing table

A table is read in pages, in descending order of a key. A page starts after a cursor, the key of
the last row of the page before, and it has a next one when there are more rows than its limit.
Between two pages the table may change: rows are added anywhere, and a row may be replaced by
another one with the same key.

`walk` follows the pages. Whatever is added, it visits rows in strictly descending order
(`walk_pairwise`), and when it ends it has visited every key that was there all the time
(`mem_walk_of_stays`). Every page that is not the last one visits something (`length_le_walk`).

There are two ways to find the rows after a cursor that is given as the id of its row: `skipTo`
drops the sorted rows up to it, `compareTo` compares the keys with its key. Both find the same
rows when the cursor is in the table, and none otherwise.
-/

set_option autoImplicit false

namespace Pagination

variable {ρ κ ι : Type} [LinearOrder κ] (key : ρ → κ)

/-- The rows in descending order of their keys. -/
def descending (rows : List ρ) : List ρ := rows.mergeSort fun row row' => key row' ≤ key row

/-- The rows after the cursor. -/
def remaining (cursor : Option κ) (rows : List ρ) : List ρ :=
  (descending key rows).filter fun row => ∀ c ∈ cursor, key row < c

/-- The rows of a page. -/
def page (cursor : Option κ) (rows : List ρ) (limit : Nat) : List ρ :=
  (remaining key cursor rows).take limit

/-- The last row of a page that is not the last page. -/
def last? (cursor : Option κ) (rows : List ρ) (limit : Nat) : Option ρ :=
  if limit < (remaining key cursor rows).length then (page key cursor rows limit).getLast?
  else none

/-- The rows that are visited when each page is read from the next table with the next limit, and
whether the last page was among them. -/
def walk : Option κ → List (List ρ × Nat) → List ρ × Bool
  | _, [] => ([], false)
  | cursor, (rows, limit) :: visits =>
      match last? key cursor rows limit with
      | none => (page key cursor rows limit, true)
      | some row =>
          (page key cursor rows limit ++ (walk (some (key row)) visits).1,
            (walk (some (key row)) visits).2)

section

variable {key} {cursor : Option κ} {rows : List ρ} {limit : Nat} {row : ρ}

/-! ### One page -/

/-- Sorting loses no row and adds none. -/
theorem mem_descending : row ∈ descending key rows ↔ row ∈ rows := List.mem_mergeSort

/-- The rows that remain after a cursor are those with a smaller key. The order is descending, so
smaller keys come later. -/
theorem mem_remaining :
    row ∈ remaining key cursor rows ↔ row ∈ rows ∧ ∀ c ∈ cursor, key row < c := by
  rw [remaining, List.mem_filter, mem_descending, decide_eq_true_eq]

/-- Rows with different keys are sorted strictly. -/
theorem descending_pairwise (h : (rows.map key).Nodup) :
    (descending key rows).Pairwise fun row row' => key row' < key row := by
  -- Sorted with repetitions allowed; distinct keys make the order strict.
  have hsorted : (descending key rows).Pairwise fun row row' => key row' ≤ key row := by
    have htrans : ∀ a b c : ρ, decide (key b ≤ key a) = true → decide (key c ≤ key b) = true →
        decide (key c ≤ key a) = true := by
      intro a b c hab hbc
      rw [decide_eq_true_eq] at *
      exact hbc.trans hab
    have htotal : ∀ a b : ρ, (decide (key b ≤ key a) || decide (key a ≤ key b)) = true := by
      intro a b
      rw [Bool.or_eq_true, decide_eq_true_eq, decide_eq_true_eq]
      exact le_total (key b) (key a)
    exact (List.pairwise_mergeSort htrans htotal rows).imp of_decide_eq_true
  have hnodup : ((descending key rows).map key).Nodup :=
    ((List.mergeSort_perm _ _).map key).nodup_iff.mpr h
  rw [List.nodup_iff_pairwise_ne, List.pairwise_map] at hnodup
  exact (hsorted.and hnodup).imp fun h => lt_of_le_of_ne h.1 (Ne.symm h.2)

/-- The order in which a table gives its rows does not matter. -/
theorem descending_perm {rows' : List ρ} (h : (rows.map key).Nodup) (hperm : rows.Perm rows') :
    descending key rows = descending key rows' := by
  have hperm' : (descending key rows).Perm (descending key rows') :=
    ((List.mergeSort_perm rows _).trans hperm).trans (List.mergeSort_perm rows' _).symm
  have hkeys : (rows'.map key).Nodup := (hperm.map key).nodup_iff.mp h
  exact List.Perm.eq_of_pairwise (fun a b _ _ hab hba => absurd hab (lt_asymm hba))
    (descending_pairwise h) (descending_pairwise hkeys) hperm'

/-- The rows that remain have strictly descending keys, when no two rows share a key. -/
theorem remaining_pairwise (h : (rows.map key).Nodup) (cursor : Option κ) :
    (remaining key cursor rows).Pairwise fun row row' => key row' < key row :=
  (descending_pairwise h).filter _

/-- A row of a page is a row of the listing, after the cursor of the page. -/
theorem mem_of_mem_page (h : row ∈ page key cursor rows limit) :
    row ∈ rows ∧ ∀ c ∈ cursor, key row < c :=
  mem_remaining.mp (List.mem_of_mem_take h)

/-- The last page has all the rows that remain. -/
theorem page_of_last?_none (hlimit : 0 < limit) (h : last? key cursor rows limit = none) :
    page key cursor rows limit = remaining key cursor rows := by
  unfold last? at h
  split at h
  · next hlt =>
    rw [List.getLast?_eq_none_iff, page, List.take_eq_nil_iff] at h
    rcases h with hzero | hnil
    · omega
    · rw [hnil] at hlt
      exact absurd hlt (Nat.not_lt_zero _)
  · next hle => exact List.take_of_length_le (by omega)

/-- A page that is not the last one ends with its last row, and the rows that remain after it
are those with smaller keys. -/
theorem page_of_last?_some (h : last? key cursor rows limit = some row) :
    ∃ before after, page key cursor rows limit = before ++ [row] ∧
      remaining key cursor rows = before ++ row :: after := by
  unfold last? at h
  split at h
  · obtain ⟨before, hpage⟩ := List.getLast?_eq_some_iff.mp h
    refine ⟨before, (remaining key cursor rows).drop limit, hpage, ?_⟩
    have hsplit := List.take_append_drop limit (remaining key cursor rows)
    rw [page] at hpage
    rw [hpage, List.append_assoc] at hsplit
    exact hsplit.symm
  · cases h

/-- The row that gives the next cursor is on the page. -/
theorem mem_page_of_last? (h : last? key cursor rows limit = some row) :
    row ∈ page key cursor rows limit := by
  obtain ⟨before, -, hpage, -⟩ := page_of_last?_some h
  rw [hpage]
  exact List.mem_append_right _ (List.mem_singleton_self _)

/-- A row that remains is on the page, or it comes after the last row of the page. -/
theorem mem_page_or_lt {last : ρ} (hnodup : (rows.map key).Nodup)
    (h : last? key cursor rows limit = some last) (hrow : row ∈ remaining key cursor rows) :
    row ∈ page key cursor rows limit ∨ key row < key last := by
  obtain ⟨before, after, hpage, hremaining⟩ := page_of_last?_some h
  have hsorted := remaining_pairwise hnodup cursor
  rw [hremaining] at hrow hsorted
  rw [hpage]
  rcases List.mem_append.mp hrow with hbefore | hrest
  · exact .inl (List.mem_append_left _ hbefore)
  · rcases List.mem_cons.mp hrest with rfl | hafter
    · exact .inl (List.mem_append_right _ (List.mem_singleton_self _))
    · have hcons := (List.pairwise_append.mp hsorted).2.1
      exact .inr ((List.pairwise_cons.mp hcons).1 row hafter)

/-- The last row has the smallest key of its page. -/
theorem last_le {last : ρ} (hnodup : (rows.map key).Nodup)
    (h : last? key cursor rows limit = some last) (hrow : row ∈ page key cursor rows limit) :
    key last ≤ key row := by
  obtain ⟨before, after, hpage, hremaining⟩ := page_of_last?_some h
  have hsorted := remaining_pairwise hnodup cursor
  rw [hremaining] at hsorted
  rw [hpage] at hrow
  rcases List.mem_append.mp hrow with hbefore | hlast
  · exact ((List.pairwise_append.mp hsorted).2.2 row hbefore last List.mem_cons_self).le
  · rw [List.mem_singleton.mp hlast]

/-! ### The walk -/

/-- Different keys in every table, and no empty pages. -/
def Regular (key : ρ → κ) (visits : List (List ρ × Nat)) : Prop :=
  ∀ visit ∈ visits, (visit.1.map key).Nodup ∧ 0 < visit.2

variable {visits : List (List ρ × Nat)}

/-- A row that the walk collects was in the listing at one of the visits. The listing may change
between two visits. -/
theorem mem_walk : ∀ {visits : List (List ρ × Nat)} {cursor : Option κ},
    row ∈ (walk key cursor visits).1 → ∃ visit ∈ visits, row ∈ visit.1 := by
  intro visits
  induction visits with
  | nil =>
    intro cursor h
    cases h
  | cons visit visits ih =>
    obtain ⟨rows, limit⟩ := visit
    intro cursor h
    rw [walk] at h
    split at h
    · exact ⟨_, List.mem_cons_self, (mem_of_mem_page h).1⟩
    · rcases List.mem_append.mp h with hpage | hrest
      · exact ⟨_, List.mem_cons_self, (mem_of_mem_page hpage).1⟩
      · obtain ⟨visit, hvisit, hrow⟩ := ih hrest
        exact ⟨visit, List.mem_cons_of_mem _ hvisit, hrow⟩

/-- The walk visits rows in strictly descending order, all after the cursor. -/
theorem walk_pairwise (h : Regular key visits) (cursor : Option κ) :
    ((walk key cursor visits).1.Pairwise fun row row' => key row' < key row) ∧
      ∀ row ∈ (walk key cursor visits).1, ∀ c ∈ cursor, key row < c := by
  induction visits generalizing cursor with
  | nil => exact ⟨.nil, fun _ hrow => nomatch hrow⟩
  | cons visit visits ih =>
    obtain ⟨rows, limit⟩ := visit
    have hnodup := (h _ List.mem_cons_self).1
    have hpage : (page key cursor rows limit).Pairwise fun row row' => key row' < key row :=
      (remaining_pairwise hnodup cursor).sublist (List.take_sublist _ _)
    rw [walk]
    split
    · exact ⟨hpage, fun row hrow => (mem_of_mem_page hrow).2⟩
    · -- The next pages lie behind the last row of this one, so the pages join in order.
      next last hlast =>
      obtain ⟨hsorted, hafter⟩ := ih (fun visit hvisit => h visit (List.mem_cons_of_mem _ hvisit))
        (some (key last))
      have hlt : ∀ row ∈ (walk key (some (key last)) visits).1, key row < key last :=
        fun row hrow => hafter row hrow _ rfl
      refine ⟨?_, ?_⟩
      · rw [List.pairwise_append]
        refine ⟨hpage, hsorted, fun row hrow row' hrow' => ?_⟩
        exact lt_of_lt_of_le (hlt row' hrow') (last_le hnodup hlast hrow)
      · intro row hrow c hc
        rcases List.mem_append.mp hrow with hrow | hrow
        · exact (mem_of_mem_page hrow).2 c hc
        · have hmem := mem_of_mem_page (mem_page_of_last? hlast)
          exact (hlt row hrow).trans (hmem.2 c hc)

/-- A walk that ended has visited every key after the cursor that was in all tables. -/
theorem mem_walk_of_stays {k : κ} (h : Regular key visits)
    (hstays : ∀ visit ∈ visits, k ∈ visit.1.map key) (hk : ∀ c ∈ cursor, k < c)
    (hend : (walk key cursor visits).2 = true) : k ∈ (walk key cursor visits).1.map key := by
  induction visits generalizing cursor with
  | nil => cases hend
  | cons visit visits ih =>
    obtain ⟨rows, limit⟩ := visit
    obtain ⟨hnodup, hlimit⟩ := h _ List.mem_cons_self
    obtain ⟨row, hrow, rfl⟩ := List.mem_map.mp (hstays _ List.mem_cons_self)
    have hremaining : row ∈ remaining key cursor rows := mem_remaining.mpr ⟨hrow, hk⟩
    rw [walk] at hend ⊢
    split at hend
    · -- The last page: it holds all that remains, and so the row.
      next hnone =>
      rw [page_of_last?_none hlimit hnone]
      exact List.mem_map_of_mem hremaining
    · next last hlast =>
      rw [List.map_append, List.mem_append]
      -- The row is on this page, or it lies behind the cursor of the next one.
      rcases mem_page_or_lt hnodup hlast hremaining with hpage | hlt
      · exact .inl (List.mem_map_of_mem hpage)
      · refine .inr (ih (fun visit hvisit => h visit (List.mem_cons_of_mem _ hvisit))
          (fun visit hvisit => hstays visit (List.mem_cons_of_mem _ hvisit)) ?_ hend)
        intro c hc
        cases hc
        exact hlt

/-- A walk that goes on has visited a row on every page. -/
theorem length_le_walk (h : Regular key visits) (hend : (walk key cursor visits).2 = false) :
    visits.length ≤ (walk key cursor visits).1.length := by
  induction visits generalizing cursor with
  | nil => exact Nat.zero_le _
  | cons visit visits ih =>
    obtain ⟨rows, limit⟩ := visit
    rw [walk] at hend ⊢
    split at hend
    · cases hend
    · next last hlast =>
      have hrest := ih (fun visit hvisit => h visit (List.mem_cons_of_mem _ hvisit)) hend
      obtain ⟨before, -, hpage, -⟩ := page_of_last?_some hlast
      rw [hpage, List.length_append, List.length_append, List.length_cons]
      simp only [List.length_cons, List.length_nil]
      omega

/-! ### Cursors given by ids -/

section

variable [DecidableEq ι] (id : ρ → ι)

/-- The sorted rows behind the row with the id `cursor`, by position. A cursor that names no row
leads to an empty page. -/
def skipTo (key : ρ → κ) (cursor : Option ι) (rows : List ρ) : List ρ :=
  match cursor with
  | some cursor =>
      match (descending key rows).findIdx? fun row => id row = cursor with
      | some position => (descending key rows).drop (position + 1)
      | none => []
  | none => descending key rows

/-- The sorted rows with a smaller key than the row with the id `cursor`, as a database finds them
by comparison. The two agree when keys tell rows apart. -/
def compareTo (key : ρ → κ) (cursor : Option ι) (rows : List ρ) : List ρ :=
  match cursor with
  | some cursor =>
      match rows.find? fun row => id row = cursor with
      | some found => descending key (rows.filter fun row => key row < key found)
      | none => []
  | none => descending key rows

variable {id}

/-- Without a cursor every row remains. -/
theorem remaining_none : remaining key none rows = descending key rows := by
  rw [remaining, List.filter_eq_self]
  intro row _
  exact decide_eq_true fun c hc => nomatch hc

omit [DecidableEq ι] in
/-- With different ids the row with an id is unique. -/
theorem eq_of_id (hids : (rows.map id).Nodup) {row' : ρ} (hrow : row ∈ rows) (hrow' : row' ∈ rows)
    (h : id row = id row') : row = row' :=
  List.inj_on_of_nodup_map hids hrow hrow' h

/-- Skipping to a row of the table leaves the rows after its key. -/
theorem skipTo_of_mem (hids : (rows.map id).Nodup) (hkeys : (rows.map key).Nodup)
    (hrow : row ∈ rows) :
    skipTo id key (some (id row)) rows = remaining key (some (key row)) rows := by
  have hsorted := descending_pairwise hkeys
  have hmem : row ∈ descending key rows := mem_descending.mpr hrow
  -- The row splits the sorted list. Before it are larger keys, behind it smaller ones.
  obtain ⟨before, after, hsplit⟩ := List.append_of_mem hmem
  have hother : ∀ other ∈ before, id other ≠ id row := by
    intro other hbefore heq
    have hother : other ∈ descending key rows := by
      rw [hsplit]
      exact List.mem_append_left _ hbefore
    obtain rfl := eq_of_id hids (mem_descending.mp hother) hrow heq
    rw [hsplit] at hsorted
    exact lt_irrefl _ ((List.pairwise_append.mp hsorted).2.2 other hbefore other List.mem_cons_self)
  -- Ids are distinct, so the search finds this very row.
  have hposition : (descending key rows).findIdx? (fun other => id other = id row)
      = some before.length := by
    rw [hsplit, List.findIdx?_append]
    have hbefore : before.findIdx? (fun other => id other = id row) = none := by
      rw [List.findIdx?_eq_none_iff]
      exact fun other hmem => decide_eq_false (hother other hmem)
    rw [hbefore]
    simp [List.findIdx?_cons]
  rw [hsplit] at hsorted
  obtain ⟨-, hcons, hcross⟩ := List.pairwise_append.mp hsorted
  unfold skipTo
  dsimp only
  rw [hposition]
  dsimp only
  rw [remaining, hsplit, List.filter_append, List.filter_cons]
  have hnone : before.filter (fun other => ∀ c ∈ some (key row), key other < c) = [] := by
    rw [List.filter_eq_nil_iff]
    intro other hmem hlt
    have hlt := of_decide_eq_true hlt (key row) rfl
    exact lt_asymm hlt (hcross other hmem row List.mem_cons_self)
  have hself : ¬ decide (∀ c ∈ some (key row), key row < c) = true := by
    simp
  have hafter : after.filter (fun other => ∀ c ∈ some (key row), key other < c) = after := by
    rw [List.filter_eq_self]
    intro other hmem
    refine decide_eq_true fun c hc => ?_
    cases hc
    exact (List.pairwise_cons.mp hcons).1 other hmem
  rw [hnone, if_neg hself, hafter, List.nil_append, List.drop_append]
  simp

/-- Comparing with a row of the table leaves the rows after its key. -/
theorem compareTo_of_mem (hids : (rows.map id).Nodup) (hkeys : (rows.map key).Nodup)
    (hrow : row ∈ rows) :
    compareTo id key (some (id row)) rows = remaining key (some (key row)) rows := by
  have hfound : (rows.find? fun other => id other = id row) = some row := by
    cases hfind : rows.find? fun other => id other = id row with
    | none =>
      have hnone := List.find?_eq_none.mp hfind row hrow
      simp at hnone
    | some found =>
      have hid : id found = id row := by simpa using List.find?_some hfind
      rw [eq_of_id hids (List.mem_of_find?_eq_some hfind) hrow hid]
  unfold compareTo
  dsimp only
  rw [hfound]
  dsimp only
  have hfilter : ((rows.filter fun other => key other < key row).map key).Nodup :=
    hkeys.sublist ((List.filter_sublist).map key)
  -- Both lists are sorted strictly and have the same rows.
  refine List.Perm.eq_of_pairwise (fun a b _ _ hab hba => absurd hab (lt_asymm hba))
    (descending_pairwise hfilter) (remaining_pairwise hkeys _) ?_
  refine (List.mergeSort_perm _ _).trans ?_
  rw [remaining]
  refine List.Perm.trans (List.Perm.of_eq ?_) ((List.mergeSort_perm rows _).symm.filter _)
  apply List.filter_congr
  intro other _
  simp

end

end

/-! ### Two keys -/

section

variable {κ' : Type} [LinearOrder κ'] {key' : ρ → κ'} {rows : List ρ}

variable {key}

/-- Rows that come in the same order have their keys in the same order. -/
theorem lt_of_descending_eq (hkeys : (rows.map key).Nodup) (hkeys' : (rows.map key').Nodup)
    (h : descending key rows = descending key' rows) {row row' : ρ} (hrow : row ∈ rows)
    (hrow' : row' ∈ rows) (hlt : key row' < key row) : key' row' < key' row := by
  have hsorted := descending_pairwise hkeys
  have hsorted' := descending_pairwise hkeys'
  rw [← h] at hsorted'
  -- Two rows of the list stand in one of two orders, and the second contradicts the first key.
  have hkeep : (descending key rows).Pairwise
      fun row row' => key row' < key row → key' row' < key' row := by
    refine hsorted'.imp ?_
    intro row row' hlt _
    exact hlt
  have hflip : (descending key rows).Pairwise
      fun row row' => key row < key row' → key' row < key' row' := by
    refine hsorted.imp ?_
    intro row row' hgt hlt
    exact absurd hlt (lt_asymm hgt)
  exact List.Pairwise.forall_of_forall_of_flip (fun _ _ hself => absurd hself (lt_irrefl _))
    hkeep hflip (mem_descending.mpr hrow) (mem_descending.mpr hrow') hlt

/-- Two keys sort a table the same way exactly when they compare its rows the same way. -/
theorem descending_eq_iff (hkeys : (rows.map key).Nodup) (hkeys' : (rows.map key').Nodup) :
    descending key rows = descending key' rows ↔
      ∀ row ∈ rows, ∀ row' ∈ rows, key row' < key row ↔ key' row' < key' row := by
  constructor
  · intro h row hrow row' hrow'
    exact ⟨lt_of_descending_eq hkeys hkeys' h hrow hrow',
      lt_of_descending_eq hkeys' hkeys h.symm hrow hrow'⟩
  · intro h
    have hperm : (descending key rows).Perm (descending key' rows) :=
      (List.mergeSort_perm rows _).trans (List.mergeSort_perm rows _).symm
    refine List.Perm.eq_of_pairwise (fun a b _ _ hab hba => absurd hab (lt_asymm hba))
      (descending_pairwise hkeys) ?_ hperm
    refine (descending_pairwise hkeys').imp_of_mem fun hmem hmem' hlt => ?_
    exact (h _ (mem_descending.mp hmem) _ (mem_descending.mp hmem')).mpr hlt

end

end Pagination
