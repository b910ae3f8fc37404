import CanonicalApi.Lib.Outcome

/-!
# `CanonicalApi.Lib.Search`: a search that stops early

`collect` reads items one after the other and keeps those that pass a test. It ends with the first
item that cannot be read, or as soon as it has kept `limit` of them. So what comes after the last
item that is kept does not matter, not even whether it can be read.

`collect_eq_ok_iff` and `collect_eq_error_iff` say when the search succeeds and when it fails, in
terms of a plain `mapM` and `filter` over the part of the list that is read.
-/

set_option autoImplicit false

namespace Search

open Outcome (bind_eq_ok_iff bind_eq_error_iff)

variable {ε α β : Type}

section

variable (read : α → Except ε β) (keep : β → Bool) (limit : Nat)

/-- The loop of the search. It reads the items one by one, keeps those that `keep` selects, and
stops at the limit or at the first item that cannot be read. -/
def collect (kept : List β) : List α → Except ε (List β)
  | [] => .ok kept
  | item :: items => do
      let found ← read item
      if keep found = true then
        if limit ≤ (kept ++ [found]).length then .ok (kept ++ [found])
        else collect (kept ++ [found]) items
      else collect kept items

/-- The items `before` can be read, as `found`. -/
def Readable (before : List α) (found : List β) : Prop :=
  before.mapM read = .ok found

end

variable {read : α → Except ε β} {keep : β → Bool} {limit : Nat}

/-- No item gives nothing. -/
@[simp] theorem readable_nil_iff {found : List β} : Readable read [] found ↔ found = [] := by
  simp [Readable, pure, Except.pure, eq_comm]

/-- The first item can be read, and then the rest. -/
theorem readable_cons_iff {item : α} {before : List α} {found : List β} :
    Readable read (item :: before) found ↔
      ∃ b rest, read item = .ok b ∧ Readable read before rest ∧ found = b :: rest := by
  unfold Readable
  rw [List.mapM_cons, bind_eq_ok_iff]
  constructor
  · rintro ⟨b, hb, hrest⟩
    obtain ⟨rest, hrest, hfound⟩ := (bind_eq_ok_iff _ _ _).mp hrest
    exact ⟨b, rest, hb, hrest, (Except.ok.inj hfound).symm⟩
  · rintro ⟨b, rest, hb, hrest, rfl⟩
    exact ⟨b, hb, (bind_eq_ok_iff _ _ _).mpr ⟨rest, hrest, rfl⟩⟩

/-- The search succeeds when it can read items until nothing is left or `limit` are kept, and it
returns what it has kept. -/
theorem collect_eq_ok_iff {kept out : List β} {items : List α} (hkept : kept.length < limit) :
    collect read keep limit kept items = .ok out ↔
      ∃ before after found, items = before ++ after ∧ Readable read before found ∧
        out = kept ++ found.filter keep ∧ out.length ≤ limit ∧
        (after = [] ∨ out.length = limit) := by
  induction items generalizing kept with
  | nil =>
    constructor
    · intro h
      obtain rfl := Except.ok.inj h
      refine ⟨[], [], [], rfl, readable_nil_iff.mpr rfl, ?_, by omega, .inl rfl⟩
      simp
    · rintro ⟨before, after, found, hsplit, hreadable, rfl, -, -⟩
      obtain ⟨rfl, rfl⟩ := List.append_eq_nil_iff.mp hsplit.symm
      obtain rfl := readable_nil_iff.mp hreadable
      simp [collect]
  | cons item items ih =>
    rw [collect, bind_eq_ok_iff]
    constructor
    · rintro ⟨b, hb, h⟩
      split at h
      · next hkeep =>
        split at h
        · next hfull =>
          obtain rfl := Except.ok.inj h
          refine ⟨[item], items, [b], rfl, ?_, by simp [hkeep], ?_, .inr ?_⟩
          · exact readable_cons_iff.mpr ⟨b, [], hb, readable_nil_iff.mpr rfl, rfl⟩
          · simp
            omega
          · simp at hfull ⊢
            omega
        · next hfull =>
          obtain ⟨before, after, found, rfl, hreadable, rfl, hlength, hend⟩ :=
            (ih (Nat.lt_of_not_le hfull)).mp h
          refine ⟨item :: before, after, b :: found, rfl, ?_, by simp [hkeep], hlength, hend⟩
          exact readable_cons_iff.mpr ⟨b, found, hb, hreadable, rfl⟩
      · next hkeep =>
        obtain ⟨before, after, found, rfl, hreadable, rfl, hlength, hend⟩ := (ih hkept).mp h
        refine ⟨item :: before, after, b :: found, rfl, ?_, by simp [hkeep], hlength, hend⟩
        exact readable_cons_iff.mpr ⟨b, found, hb, hreadable, rfl⟩
    · rintro ⟨before, after, found, hsplit, hreadable, rfl, hlength, hend⟩
      cases before with
      | nil =>
        -- Nothing is read only if enough were kept before.
        obtain rfl := readable_nil_iff.mp hreadable
        rcases hend with rfl | hfull
        · cases hsplit
        · simp at hfull
          omega
      | cons item' before =>
        obtain ⟨rfl, rfl⟩ := List.cons.inj hsplit
        obtain ⟨b, rest, hb, hrest, rfl⟩ := readable_cons_iff.mp hreadable
        refine ⟨b, hb, ?_⟩
        by_cases hkeep : keep b = true
        · have hfilter : kept ++ (b :: rest).filter keep =
              (kept ++ [b]) ++ rest.filter keep := by
            simp [hkeep]
          rw [if_pos hkeep]
          split
          · next hfull =>
            have hnil : rest.filter keep = [] := by
              rw [hfilter, List.length_append] at hlength
              exact List.eq_nil_of_length_eq_zero (by omega)
            rw [hfilter, hnil, List.append_nil]
          · next hfull =>
            exact (ih (Nat.lt_of_not_le hfull)).mpr
              ⟨before, after, rest, rfl, hrest, hfilter, hlength, hend⟩
        · have hfilter : kept ++ (b :: rest).filter keep = kept ++ rest.filter keep := by
            simp [hkeep]
          rw [if_neg hkeep]
          exact (ih hkept).mpr ⟨before, after, rest, rfl, hrest, hfilter, hlength, hend⟩

/-- The search fails when it meets an item that it cannot read before `limit` are kept. -/
theorem collect_eq_error_iff {kept : List β} {items : List α} {error : ε}
    (hkept : kept.length < limit) :
    collect read keep limit kept items = .error error ↔
      ∃ before item after found, items = before ++ item :: after ∧ Readable read before found ∧
        read item = .error error ∧ (kept ++ found.filter keep).length < limit := by
  induction items generalizing kept with
  | nil =>
    constructor
    · intro h
      cases h
    · rintro ⟨before, item, after, found, hsplit, -⟩
      simp at hsplit
  | cons item items ih =>
    rw [collect, bind_eq_error_iff]
    constructor
    · rintro (herror | ⟨b, hb, h⟩)
      · exact ⟨[], item, items, [], rfl, readable_nil_iff.mpr rfl, herror, by simpa using hkept⟩
      · split at h
        · next hkeep =>
          split at h
          · cases h
          · next hfull =>
            obtain ⟨before, item', after, found, rfl, hreadable, herror, hlength⟩ :=
              (ih (Nat.lt_of_not_le hfull)).mp h
            refine ⟨item :: before, item', after, b :: found, rfl, ?_, herror, ?_⟩
            · exact readable_cons_iff.mpr ⟨b, found, hb, hreadable, rfl⟩
            · simpa [hkeep] using hlength
        · next hkeep =>
          obtain ⟨before, item', after, found, rfl, hreadable, herror, hlength⟩ :=
            (ih hkept).mp h
          refine ⟨item :: before, item', after, b :: found, rfl, ?_, herror, ?_⟩
          · exact readable_cons_iff.mpr ⟨b, found, hb, hreadable, rfl⟩
          · simpa [hkeep] using hlength
    · rintro ⟨before, item', after, found, hsplit, hreadable, herror, hlength⟩
      cases before with
      | nil =>
        obtain ⟨rfl, rfl⟩ := List.cons.inj hsplit
        exact .inl herror
      | cons first before =>
        obtain ⟨rfl, rfl⟩ := List.cons.inj hsplit
        obtain ⟨b, rest, hb, hrest, rfl⟩ := readable_cons_iff.mp hreadable
        refine .inr ⟨b, hb, ?_⟩
        -- The loop goes on behind a readable item, since the limit is not reached before the bad
        -- one.
        by_cases hkeep : keep b = true
        · have hlength' : ((kept ++ [b]) ++ rest.filter keep).length < limit := by
            simpa [hkeep] using hlength
          have hfull : ¬ limit ≤ (kept ++ [b]).length := by
            rw [List.length_append] at hlength'
            omega
          rw [if_pos hkeep, if_neg hfull]
          exact (ih (Nat.lt_of_not_le hfull)).mpr ⟨before, item', after, rest, rfl, hrest, herror,
            hlength'⟩
        · have hlength' : (kept ++ rest.filter keep).length < limit := by
            simpa [hkeep] using hlength
          rw [if_neg hkeep]
          exact (ih hkept).mpr ⟨before, item', after, rest, rfl, hrest, herror, hlength'⟩

end Search
