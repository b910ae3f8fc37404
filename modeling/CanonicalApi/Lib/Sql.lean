import Mathlib.Data.List.Nodup
import Mathlib.Data.List.Perm.Basic
import Mathlib.Data.Prod.Lex

/-!
# `CanonicalApi.Lib.Sql`: conditions, joins and orders of a query

A column may be NULL, so a condition has three truth values, and a row is selected only when the
condition is true. `selectFrom` and `selectJoin` are a `SELECT` from one table and from the inner
join of two. `orderBy` sorts by a key, and `nullsLast` is the key of a column whose NULLs come
last.

A table has no order. `selectFrom_perm` and `selectJoin_perm` say that a query which can see only
some rows of its tables has the same result, up to the order, on tables that have these rows in
common. `orderBy_perm` removes the order when the keys are distinct, which `selectFrom_nodup` and
`selectJoin_nodup` provide.
-/

set_option autoImplicit false

namespace Sql

/-! ### Conditions -/

/-- The value of a condition. -/
inductive Truth where
  | yes
  | no
  | unknown
deriving DecidableEq

namespace Truth

/-- `WHERE` and `WHEN` take the rows for which the condition is true. -/
def holds : Truth → Bool
  | yes => true
  | no | unknown => false

/-- The truth of a condition that is not null. -/
def of (b : Bool) : Truth := if b then yes else no

/-- `NOT`: what is unknown stays unknown. -/
def not : Truth → Truth
  | yes => no
  | no => yes
  | unknown => unknown

/-- `AND`: a false condition decides, whatever the other one is. -/
def and : Truth → Truth → Truth
  | yes, t => t
  | no, _ => no
  | unknown, no => no
  | unknown, _ => unknown

/-- `OR`: a true condition decides, whatever the other one is. -/
def or : Truth → Truth → Truth
  | yes, _ => yes
  | no, t => t
  | unknown, yes => yes
  | unknown, _ => unknown

/-- A row meets `AND` when it meets both conditions. Neither false nor unknown lets a row
through. -/
@[simp] theorem holds_and (s t : Truth) : (s.and t).holds = (s.holds && t.holds) := by
  cases s <;> cases t <;> rfl

/-- A row meets `OR` when it meets one of the conditions. -/
@[simp] theorem holds_or (s t : Truth) : (s.or t).holds = (s.holds || t.holds) := by
  cases s <;> cases t <;> rfl

end Truth

variable {α β γ κ ρ : Type}

/-- A comparison of two columns. It is unknown when one of them is NULL. -/
def compare (r : α → β → Bool) : Option α → Option β → Truth
  | some a, some b => .of (r a b)
  | _, _ => .unknown

section

variable [DecidableEq α]

/-- `=`: unknown when one of the values is null. -/
def eq (x y : Option α) : Truth := compare (fun a b => decide (a = b)) x y

/-- `IN` over a list of values that are not null. -/
def isIn (x : Option α) (values : List α) : Truth :=
  compare (fun a l => decide (a ∈ l)) x (some values)

/-- A value that equals one that is not null is this value. -/
@[simp] theorem holds_eq_some (x : Option α) (a : α) :
    (eq x (some a)).holds = true ↔ x = some a := by
  cases x with
  | none => simp [eq, compare, Truth.holds]
  | some b =>
    by_cases h : b = a
    · simp [eq, compare, Truth.of, Truth.holds, h]
    · simp [eq, compare, Truth.of, Truth.holds, h]

end

/-- `<`: unknown when one of the values is null. -/
def lt (x y : Option Int) : Truth := compare (fun a b => decide (a < b)) x y

/-- `<=`: unknown when one of the values is null. -/
def le (x y : Option Int) : Truth := compare (fun a b => decide (a ≤ b)) x y

/-- `IS NOT NULL`: never unknown. -/
def isNotNull (x : Option α) : Truth := .of x.isSome

/-- A `||` of texts. -/
def concat (x y : Option String) : Option String :=
  match x, y with
  | some a, some b => some (a ++ b)
  | _, _ => none

/-- `left(text, n)`. -/
def left (x : Option String) (n : Nat) : Option String :=
  x.map fun text => String.ofList (text.toList.take n)

/-! ### Queries -/

/-- `SELECT row FROM rows WHERE cond`. -/
def selectFrom (rows : List α) (cond : α → Truth) (row : α → ρ) : List ρ :=
  (rows.filter fun a => (cond a).holds).map row

/-- `SELECT row FROM rows JOIN others ON on WHERE cond`. -/
def selectJoin (rows : List α) (others : List β) (on cond : α → β → Truth) (row : α → β → ρ) :
    List ρ :=
  rows.flatMap fun a => selectFrom others (fun b => (on a b).and (cond a b)) (row a)

/-- `EXISTS (SELECT 1 FROM rows WHERE cond)`. -/
def existsIn (rows : List α) (cond : α → Truth) : Bool := rows.any fun a => (cond a).holds

/-- `ORDER BY key`. -/
def orderBy [LinearOrder κ] (key : ρ → κ) (rows : List ρ) : List ρ :=
  rows.mergeSort fun row row' => key row ≤ key row'

/-- A column in an order with `NULLS LAST`, which is the default. -/
def nullsLast (fallback : α) (x : Option α) : Bool ×ₗ α := toLex (x.isNone, x.getD fallback)

/-- The key that sorts nulls last tells the values apart. -/
theorem nullsLast_inj (fallback : α) {x y : Option α}
    (h : nullsLast fallback x = nullsLast fallback y) : x = y := by
  have hpair : (x.isNone, x.getD fallback) = (y.isNone, y.getD fallback) := toLex.injective h
  obtain ⟨hnone, hvalue⟩ := Prod.mk.inj hpair
  cases x with
  | none =>
    cases y with
    | none => rfl
    | some b => cases hnone
  | some a =>
    cases y with
    | none => cases hnone
    | some b => exact congrArg some hvalue

/-! ### The rows that a query sees -/

section

variable {rows rows' : List α} {others others' : List β} {p : α → Bool} {q : β → Bool}

/-- Only the rows with `p` matter to a query whose condition asks for `p`. -/
theorem filter_seen {cond : α → Truth} (hp : ∀ a, (cond a).holds = true → p a = true) :
    (rows.filter fun a => (cond a).holds) =
      (rows.filter p).filter fun a => (cond a).holds := by
  rw [List.filter_filter]
  apply List.filter_congr
  intro a _
  by_cases h : (cond a).holds = true
  · simp [h, hp a h]
  · simp [h]

/-- A statement gives the same rows, in some order, on two tables with the same rows among those
that it can select (`p`). The rows outside of `p` may differ: this is how a tenant does not see the
rows of another one. -/
theorem selectFrom_perm {cond cond' : α → Truth} {row row' : α → ρ}
    (hrows : (rows.filter p).Perm (rows'.filter p))
    (hp : ∀ a, (cond a).holds = true → p a = true)
    (hp' : ∀ a, (cond' a).holds = true → p a = true)
    (hcond : ∀ a, p a = true → (cond a).holds = (cond' a).holds)
    (hrow : ∀ a, p a = true → row a = row' a) :
    (selectFrom rows cond row).Perm (selectFrom rows' cond' row') := by
  have hsame : selectFrom rows' cond' row' = selectFrom (rows'.filter p) cond row := by
    rw [selectFrom, filter_seen hp', selectFrom,
      List.filter_congr (q := fun a => (cond a).holds)
        (fun a ha => (hcond a (List.mem_filter.mp ha).2).symm)]
    apply List.map_congr_left
    intro a ha
    exact (hrow a (List.mem_filter.mp (List.mem_filter.mp ha).1).2).symm
  rw [hsame, selectFrom, filter_seen hp]
  exact (hrows.filter _).map row

/-- The same for a join: the tables have the same rows among those that the join can select, `p` on
the one side and `q` on the other. -/
theorem selectJoin_perm {on cond : α → β → Truth} {row : α → β → ρ}
    (hrows : (rows.filter p).Perm (rows'.filter p))
    (hothers : (others.filter q).Perm (others'.filter q))
    (hp : ∀ a b, (on a b).holds = true → (cond a b).holds = true → p a = true ∧ q b = true) :
    (selectJoin rows others on cond row).Perm (selectJoin rows' others' on cond row) := by
  have hseen : ∀ a b, ((on a b).and (cond a b)).holds = true → p a = true ∧ q b = true := by
    intro a b h
    rw [Truth.holds_and, Bool.and_eq_true] at h
    exact hp a b h.1 h.2
  have hnone : ∀ (a : α) (l : List β), p a ≠ true →
      selectFrom l (fun b => (on a b).and (cond a b)) (row a) = [] := by
    intro a l hpa
    rw [selectFrom, List.map_eq_nil_iff, List.filter_eq_nil_iff]
    exact fun b _ h => hpa (hseen a b h).1
  -- The rows without `p` have no partner.
  have hdrop : ∀ (l : List α) (m : List β),
      selectJoin l m on cond row = selectJoin (l.filter p) m on cond row := by
    intro l m
    induction l with
    | nil => rfl
    | cons a l ih =>
      by_cases hpa : p a = true
      · rw [List.filter_cons_of_pos hpa, selectJoin, List.flatMap_cons, selectJoin,
          List.flatMap_cons]
        exact congrArg _ ih
      · rw [List.filter_cons_of_neg hpa, ← ih, selectJoin, List.flatMap_cons, hnone a m hpa,
          List.nil_append, selectJoin]
  rw [hdrop rows, hdrop rows']
  have hpartners : ∀ a, (selectFrom others (fun b => (on a b).and (cond a b)) (row a)).Perm
      (selectFrom others' (fun b => (on a b).and (cond a b)) (row a)) := fun a =>
    selectFrom_perm hothers (fun b h => (hseen a b h).2) (fun b h => (hseen a b h).2)
      (fun _ _ => rfl) fun _ _ => rfl
  exact (hrows.flatMap_right _).trans (List.Perm.flatMap_left _ fun a _ => hpartners a)

/-- So it is for a subquery. -/
theorem existsIn_perm {cond : α → Truth} (hrows : (rows.filter p).Perm (rows'.filter p))
    (hp : ∀ a, (cond a).holds = true → p a = true) : existsIn rows cond = existsIn rows' cond := by
  have hseen : ∀ l : List α, existsIn l cond = existsIn (l.filter p) cond := by
    intro l
    rw [existsIn, existsIn, List.any_filter]
    apply List.any_congr rfl
    intro a
    by_cases h : (cond a).holds = true
    · simp [h, hp a h]
    · simp [h]
  rw [hseen rows, hseen rows', existsIn, existsIn]
  exact hrows.any_eq

end

/-! ### Distinct keys -/

section

variable {rows : List α} {others : List β} {p : α → Bool} {q : β → Bool} {key : ρ → κ}

/-- A statement gives no key twice, when the rows that it can select have different keys. -/
theorem selectFrom_nodup {cond : α → Truth} {row : α → ρ}
    (hrows : ((rows.filter p).map fun a => key (row a)).Nodup)
    (hp : ∀ a, (cond a).holds = true → p a = true) :
    ((selectFrom rows cond row).map key).Nodup := by
  rw [selectFrom, filter_seen hp, List.map_map]
  exact hrows.sublist ((List.filter_sublist).map _)

/-- In a join each row has its own key, when it has at most one partner. -/
theorem selectJoin_nodup {on cond : α → β → Truth} {row : α → β → ρ} {keyOf : α → κ}
    (hkey : ∀ a b, key (row a b) = keyOf a)
    (hrows : ((rows.filter p).map keyOf).Nodup)
    (hp : ∀ a b, (on a b).holds = true → (cond a b).holds = true → p a = true)
    (hone : ∀ a, (others.filter fun b => ((on a b).and (cond a b)).holds).length ≤ 1) :
    ((selectJoin rows others on cond row).map key).Nodup := by
  -- Each row gives its key at most once.
  have hsub : ∀ l : List α, ((selectJoin l others on cond row).map key).Sublist
      ((l.filter p).map keyOf) := by
    intro l
    induction l with
    | nil => exact List.Sublist.slnil
    | cons a l ih =>
      rw [selectJoin, List.flatMap_cons, List.map_append]
      have hpartners : ((selectFrom others (fun b => (on a b).and (cond a b)) (row a)).map key) =
          (others.filter fun b => ((on a b).and (cond a b)).holds).map fun _ => keyOf a := by
        rw [selectFrom, List.map_map]
        exact List.map_congr_left fun b _ => hkey a b
      rw [hpartners]
      have hlength := hone a
      cases hfilter : others.filter fun b => ((on a b).and (cond a b)).holds with
      | nil =>
        show ((selectJoin l others on cond row).map key).Sublist _
        refine ih.trans (List.Sublist.map _ (List.Sublist.filter p (List.sublist_cons_self a l)))
      | cons b bs =>
        rw [hfilter, List.length_cons] at hlength
        obtain rfl : bs = [] := List.eq_nil_of_length_eq_zero (by omega)
        have hb : ((on a b).and (cond a b)).holds = true := by
          have hmem : b ∈ others.filter fun b => ((on a b).and (cond a b)).holds := by
            rw [hfilter]
            exact List.mem_cons_self
          exact (List.mem_filter.mp hmem).2
        rw [Truth.holds_and, Bool.and_eq_true] at hb
        rw [List.filter_cons_of_pos (hp a b hb.1 hb.2), List.map_cons]
        exact ih.cons_cons _
  exact hrows.sublist (hsub rows)

end

/-! ### The order -/

section

variable [LinearOrder κ] {key : ρ → κ} {rows rows' : List ρ}

/-- Sorting loses no row and adds none. -/
@[simp] theorem mem_orderBy {row : ρ} : row ∈ orderBy key rows ↔ row ∈ rows := List.mem_mergeSort

/-- Sorting keeps the number of rows. -/
@[simp] theorem length_orderBy : (orderBy key rows).length = rows.length :=
  List.length_mergeSort _

/-- The rows are sorted by their keys. -/
theorem orderBy_pairwise :
    (orderBy key rows).Pairwise fun row row' => key row ≤ key row' := by
  have htrans : ∀ a b c : ρ, decide (key a ≤ key b) = true → decide (key b ≤ key c) = true →
      decide (key a ≤ key c) = true := by
    intro a b c hab hbc
    rw [decide_eq_true_eq] at *
    exact hab.trans hbc
  have htotal : ∀ a b : ρ, (decide (key a ≤ key b) || decide (key b ≤ key a)) = true := by
    intro a b
    rw [Bool.or_eq_true, decide_eq_true_eq, decide_eq_true_eq]
    exact le_total (key a) (key b)
  exact (List.pairwise_mergeSort htrans htotal rows).imp of_decide_eq_true

/-- Rows with distinct keys have one order. -/
theorem orderBy_perm (h : (rows.map key).Nodup) (hperm : rows.Perm rows') :
    orderBy key rows = orderBy key rows' := by
  have hperm' : (orderBy key rows).Perm (orderBy key rows') :=
    ((List.mergeSort_perm rows _).trans hperm).trans (List.mergeSort_perm rows' _).symm
  refine List.Perm.eq_of_pairwise ?_ orderBy_pairwise orderBy_pairwise hperm'
  intro a b ha hb hab hba
  have hkey : key a = key b := le_antisymm hab hba
  exact List.inj_on_of_nodup_map h (mem_orderBy.mp ha)
    (hperm.mem_iff.mpr (mem_orderBy.mp hb)) hkey

/-- The first rows come before every row that the limit leaves out. -/
theorem take_orderBy_le {limit : Nat} {row row' : ρ} (h : row ∈ (orderBy key rows).take limit)
    (h' : row' ∈ (orderBy key rows).drop limit) : key row ≤ key row' := by
  have hsorted : ((orderBy key rows).take limit ++ (orderBy key rows).drop limit).Pairwise
      fun row row' => key row ≤ key row' := by
    rw [List.take_append_drop]
    exact orderBy_pairwise
  exact (List.pairwise_append.mp hsorted).2.2 row h row' h'

end

end Sql
