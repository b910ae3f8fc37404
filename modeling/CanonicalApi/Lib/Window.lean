import Mathlib.Algebra.GroupWithZero.Nat
import Mathlib.Algebra.Order.BigOperators.Group.List
import Mathlib.Algebra.Order.Group.Nat
import Mathlib.Data.List.AList
import Mathlib.Data.List.Perm.Subperm

/-!
# `CanonicalApi.Lib.Window`: sliding windows over a log of events

A log is a list of events, each with a key and a time. The events of the last `width` units of
time are the live ones. A sliding window does not keep the log. It keeps the live times of all
keys in one queue and those of each key in a map, and drops what has expired from the front of
every queue.

`Tracks` says that a window agrees with a log. `Tracks.prune` and `Tracks.push` are the two
operations, for clocks that do not go backwards. `Tracks.keys_le` bounds the number of keys by
the number of live events.

Without an order on the clock a front that is live hides what has expired behind it, and the
queues of the keys fall apart from the queue of all. `Covers` is what is left of `Tracks`: every
queue of a key holds some of the events of that key in the queue of all.
-/

set_option autoImplicit false

namespace Window

/-! ### Times -/

variable {width now now' : Nat} {times : List Nat}

/-- The times of the last `width` units. -/
def live (width now : Nat) (times : List Nat) : List Nat :=
  times.filter fun t => now < t + width

/-- A time is live as long as the window of width `width` that starts with it has not passed. -/
theorem mem_live {t : Nat} : t ∈ live width now times ↔ t ∈ times ∧ now < t + width := by
  simp [live]

/-- In a sorted queue, dropping the expired times from the front leaves the live ones. -/
theorem dropWhile_eq_live (hwidth : 0 < width) (hsorted : times.Pairwise (· ≤ ·)) :
    times.dropWhile (fun t => width ≤ now - t) = live width now times := by
  induction times with
  | nil => rfl
  | cons t times ih =>
    obtain ⟨hle, hsorted⟩ := List.pairwise_cons.mp hsorted
    by_cases hexpired : width ≤ now - t
    · have hdead : ¬ now < t + width := by omega
      simp only [live, List.dropWhile_cons, List.filter_cons, hexpired, hdead, decide_true,
        decide_false, if_true]
      exact ih hsorted
    · -- The front is live, and so is everything behind it.
      have hall : ∀ t' ∈ t :: times, now < t' + width := by
        intro t' ht'
        rcases List.mem_cons.mp ht' with rfl | ht'
        · omega
        · have := hle t' ht'
          omega
      have hlive : live width now (t :: times) = t :: times :=
        List.filter_eq_self.mpr fun t' ht' => decide_eq_true (hall t' ht')
      rw [hlive, List.dropWhile_cons, if_neg (by simpa using hexpired)]

/-- What is live later was live before. -/
theorem live_live (h : now ≤ now') (times : List Nat) :
    live width now' (live width now times) = live width now' times := by
  unfold live
  rw [List.filter_filter]
  refine List.filter_congr fun t _ => ?_
  simp only [Bool.and_eq_left_iff_imp, decide_eq_true_eq]
  omega

/-- The live times are in the order in which they came. -/
theorem live_sorted (hsorted : times.Pairwise (· ≤ ·)) :
    (live width now times).Pairwise (· ≤ ·) :=
  hsorted.sublist List.filter_sublist

/-- Each time is live or not by itself. -/
theorem live_append (times times' : List Nat) :
    live width now (times ++ times') = live width now times ++ live width now times' :=
  List.filter_append ..

/-- A time that comes now is live. -/
theorem live_now (hwidth : 0 < width) : live width now [now] = [now] :=
  List.filter_eq_self.mpr (by simpa using hwidth)

/-! ### Logs -/

variable {κ : Type} [DecidableEq κ]

/-- The times of all events. -/
def timesOf (log : List (κ × Nat)) : List Nat := log.map Prod.snd

/-- The times of the events of one key. -/
def timesOfKey (key : κ) (log : List (κ × Nat)) : List Nat :=
  (log.filter fun e => e.1 = key).map Prod.snd

/-- The clock of the log does not go backwards. -/
def Ordered (log : List (κ × Nat)) : Prop := (timesOf log).Pairwise (· ≤ ·)

variable {log : List (κ × Nat)} {key : κ}

/-- The times of a key are those that the log has with this key. -/
theorem mem_timesOfKey {t : Nat} : t ∈ timesOfKey key log ↔ (key, t) ∈ log := by
  simp [timesOfKey]

/-- In an ordered log, the times of each key are ordered too. -/
theorem Ordered.timesOfKey (h : Ordered log) (key : κ) :
    (timesOfKey key log).Pairwise (· ≤ ·) :=
  List.Pairwise.sublist (List.filter_sublist.map Prod.snd) h

omit [DecidableEq κ] in
/-- A new entry adds its time at the end. -/
theorem timesOf_append (e : κ × Nat) : timesOf (log ++ [e]) = timesOf log ++ [e.2] :=
  List.map_append

/-- A new entry of the key adds its time at the end. -/
theorem timesOfKey_append_self (t : Nat) :
    timesOfKey key (log ++ [(key, t)]) = timesOfKey key log ++ [t] := by
  simp [timesOfKey]

/-- An entry of another key does not change the times of the key. -/
theorem timesOfKey_append_of_ne {key' : κ} (h : key ≠ key') (t : Nat) :
    timesOfKey key' (log ++ [(key, t)]) = timesOfKey key' log := by
  simp [timesOfKey, h]

omit [DecidableEq κ] in
/-- Counting the live times of the log is counting its live entries. -/
theorem length_live_timesOf (log : List (κ × Nat)) :
    (live width now (timesOf log)).length = (log.filter fun e => now < e.2 + width).length := by
  rw [live, timesOf, List.filter_map, List.length_map]
  rfl

/-- Counting the live times of a key is counting the live entries with this key. -/
theorem length_live_timesOfKey (key : κ) (log : List (κ × Nat)) :
    (live width now (timesOfKey key log)).length =
      ((log.filter fun e => now < e.2 + width).filter fun e => e.1 = key).length := by
  rw [live, timesOfKey, List.filter_map, List.length_map, List.filter_filter,
    List.filter_filter]
  exact congrArg List.length (List.filter_congr fun e _ => Bool.and_comm _ _)

/-! ### Maps -/

/-- Change every value of a map, and keep the non-empty ones (`HashMap::retain`). -/
def retain (change : List Nat → List Nat) (byKey : AList fun _ : κ => List Nat) :
    AList fun _ : κ => List Nat where
  entries := (byKey.entries.map (Sigma.map id fun _ => change)).filter fun e => e.2 ≠ []
  nodupKeys := (byKey.nodupKeys.map₂ _ _).sublist List.filter_sublist

/-- What a key has after `retain`: the changed times, unless none is left. `retain` drops the keys
without a time. -/
theorem mem_lookup_retain {change : List Nat → List Nat} {byKey : AList fun _ : κ => List Nat}
    {ts : List Nat} :
    ts ∈ (retain change byKey).lookup key ↔
      ts ≠ [] ∧ ∃ ts', ts' ∈ byKey.lookup key ∧ change ts' = ts := by
  simp only [AList.mem_lookup_iff, retain, List.mem_filter, List.mem_map, ne_eq,
    decide_not, Bool.not_eq_true', decide_eq_false_iff_not]
  constructor
  · rintro ⟨⟨⟨key', ts'⟩, hmem, heq⟩, hne⟩
    cases heq
    exact ⟨hne, ts', hmem, rfl⟩
  · rintro ⟨hne, ts', hmem, rfl⟩
    exact ⟨⟨⟨key, ts'⟩, hmem, rfl⟩, hne⟩

/-! ### Windows -/

/-- The queue `all` and the map `byKey` hold the live times of the log. -/
structure Tracks (width now : Nat) (log : List (κ × Nat)) (all : List Nat)
    (byKey : AList fun _ : κ => List Nat) : Prop where
  all : all = live width now (timesOf log)
  byKey : ∀ key ts, ts ∈ byKey.lookup key ↔
    ts = live width now (timesOfKey key log) ∧ ts ≠ []

namespace Tracks

variable {all : List Nat} {byKey : AList fun _ : κ => List Nat}

/-- Before the first entry the state tracks the empty log. -/
theorem empty : Tracks width now ([] : List (κ × Nat)) [] ∅ where
  all := rfl
  byKey key ts := by
    simp only [AList.lookup_empty, Option.not_mem_none, false_iff, not_and, not_not]
    exact fun h => h

/-- The queue of a key, which is empty when the map has no entry. -/
theorem getD_lookup (h : Tracks width now log all byKey) (key : κ) :
    (byKey.lookup key).getD [] = live width now (timesOfKey key log) := by
  cases hlookup : byKey.lookup key with
  | some ts => exact ((h.byKey key ts).mp hlookup).1
  | none =>
    by_contra hne
    have hmem := (h.byKey key _).mpr ⟨rfl, Ne.symm hne⟩
    rw [hlookup] at hmem
    cases hmem

/-- There are no more keys than live events. -/
theorem keys_le (h : Tracks width now log all byKey) : byKey.keys.length ≤ all.length := by
  have hsub : byKey.keys ⊆ (log.filter fun e => now < e.2 + width).map Prod.fst := by
    intro key hkey
    obtain ⟨ts, hts⟩ := Option.isSome_iff_exists.mp (AList.lookup_isSome.mpr hkey)
    obtain ⟨rfl, hne⟩ := (h.byKey key ts).mp hts
    obtain ⟨t, ht⟩ := List.exists_mem_of_ne_nil _ hne
    obtain ⟨hmem, hlive⟩ := mem_live.mp ht
    exact List.mem_map.mpr ⟨(key, t), List.mem_filter.mpr ⟨mem_timesOfKey.mp hmem,
      decide_eq_true hlive⟩, rfl⟩
  have hlength := (List.subperm_of_subset byKey.keys_nodup hsub).length_le
  rw [List.length_map, ← length_live_timesOf, ← h.all] at hlength
  exact hlength

/-- Dropping what has expired from the front of every queue. -/
theorem prune (h : Tracks width now log all byKey) (hwidth : 0 < width) (hlog : Ordered log)
    (hle : now ≤ now') :
    Tracks width now' log (all.dropWhile fun t => width ≤ now' - t)
      (retain (fun ts => ts.dropWhile fun t => width ≤ now' - t) byKey) where
  all := by
    rw [h.all, dropWhile_eq_live hwidth (live_sorted hlog), live_live hle]
  byKey key ts := by
    -- The times of a key are in order, so that dropping the oldest leaves the live ones.
    have hqueue : (live width now (timesOfKey key log)).dropWhile (fun t => width ≤ now' - t) =
        live width now' (timesOfKey key log) := by
      rw [dropWhile_eq_live hwidth (live_sorted (hlog.timesOfKey key)), live_live hle]
    rw [mem_lookup_retain]
    constructor
    · rintro ⟨hne, ts', hmem, rfl⟩
      obtain ⟨rfl, -⟩ := (h.byKey key ts').mp hmem
      exact ⟨hqueue, hne⟩
    · rintro ⟨rfl, hne⟩
      refine ⟨hne, _, (h.byKey key _).mpr ⟨rfl, fun hnil => hne ?_⟩, hqueue⟩
      rw [← hqueue, hnil]
      rfl

/-- Adding an event at the current time. -/
theorem push (h : Tracks width now log all byKey) (hwidth : 0 < width) (key : κ) :
    Tracks width now (log ++ [(key, now)]) (all ++ [now])
      (byKey.insert key (live width now (timesOfKey key log) ++ [now])) where
  all := by
    rw [timesOf_append, live_append, live_now hwidth, h.all]
  byKey key' ts := by
    -- Only the queue of this key grows.
    by_cases hkey : key' = key
    · subst hkey
      rw [AList.lookup_insert, timesOfKey_append_self, live_append, live_now hwidth,
        Option.mem_some_iff]
      constructor
      · rintro rfl
        exact ⟨rfl, by simp⟩
      · rintro ⟨rfl, -⟩
        rfl
    · rw [AList.lookup_insert_ne hkey, timesOfKey_append_of_ne (Ne.symm hkey), h.byKey]

/-- Writing the non-empty queue of a key back changes nothing. -/
theorem rewrite (h : Tracks width now log all byKey) {key : κ}
    (hne : live width now (timesOfKey key log) ≠ []) :
    Tracks width now log all (byKey.insert key (live width now (timesOfKey key log))) where
  all := h.all
  byKey key' ts := by
    by_cases hkey : key' = key
    · subst hkey
      rw [AList.lookup_insert, Option.mem_some_iff]
      constructor
      · rintro rfl
        exact ⟨rfl, hne⟩
      · rintro ⟨rfl, -⟩
        rfl
    · rw [AList.lookup_insert_ne hkey, h.byKey]

end Tracks

/-! ### Windows under any clock -/

omit [DecidableEq κ] in
/-- Dropping expired times is dropping the expired entries of the log. -/
theorem timesOf_dropWhile (expired : Nat → Bool) (log : List (κ × Nat)) :
    (timesOf log).dropWhile expired = timesOf (log.dropWhile fun e => expired e.2) :=
  List.dropWhile_map ..

/-- What is dropped from the queue of all is dropped from the queue of its key. -/
theorem sublist_dropWhile (expired : Nat → Bool) {ts : List Nat}
    (h : ts.Sublist (timesOfKey key log)) :
    (ts.dropWhile expired).Sublist
      (timesOfKey key (log.dropWhile fun e => expired e.2)) := by
  induction log generalizing ts with
  | nil =>
    have hnil : ts = [] := List.sublist_nil.mp h
    subst hnil
    exact List.Sublist.refl _
  | cons e log ih =>
    by_cases hexpired : expired e.2 = true
    · rw [List.dropWhile_cons, if_pos hexpired]
      by_cases hkey : e.1 = key
      · have hcons : timesOfKey key (e :: log) = e.2 :: timesOfKey key log := by
          simp [timesOfKey, hkey]
        rw [hcons] at h
        cases h with
        | cons _ h => exact ih h
        | cons_cons _ h =>
          -- The first time of the key is the one that has expired.
          rw [List.dropWhile_cons, if_pos hexpired]
          exact ih h
      · have hskip : timesOfKey key (e :: log) = timesOfKey key log := by
          simp [timesOfKey, hkey]
        rw [hskip] at h
        exact ih h
    · rw [List.dropWhile_cons, if_neg hexpired]
      exact (List.dropWhile_sublist _).trans h

/-- Different keys have different events. -/
theorem sum_length_timesOfKey_le {keys : List κ} (hkeys : keys.Nodup) (log : List (κ × Nat)) :
    (keys.map fun key => (timesOfKey key log).length).sum ≤ log.length := by
  induction keys generalizing log with
  | nil => exact Nat.zero_le _
  | cons key keys ih =>
    obtain ⟨hfresh, hkeys⟩ := List.nodup_cons.mp hkeys
    -- The other keys do not count the times of this one, so that these can be left out.
    have hrest : (keys.map fun key' => (timesOfKey key' log).length) =
        keys.map fun key' => (timesOfKey key' (log.filter fun e => e.1 ≠ key)).length := by
      refine List.map_congr_left fun key' hmem => ?_
      have hne : key' ≠ key := fun heq => hfresh (heq ▸ hmem)
      rw [timesOfKey, timesOfKey, List.filter_filter]
      refine congrArg (fun l => (List.map Prod.snd l).length) (List.filter_congr fun e _ => ?_)
      by_cases hkey : e.1 = key' <;> simp [hkey, hne]
    have hle := ih hkeys (log.filter fun e => e.1 ≠ key)
    have hsplit : log.length = (log.filter fun e => e.1 = key).length +
        (log.filter fun e => e.1 ≠ key).length := by
      simpa using List.length_eq_length_filter_add (l := log) fun e => decide (e.1 = key)
    rw [List.map_cons, List.sum_cons, hrest, hsplit]
    simp only [timesOfKey, List.length_map] at hle ⊢
    omega

/-- The queue `all` holds the times of the log, and the map holds some of those of each key. -/
structure Covers (log : List (κ × Nat)) (all : List Nat)
    (byKey : AList fun _ : κ => List Nat) : Prop where
  all : all = timesOf log
  byKey : ∀ key ts, ts ∈ byKey.lookup key → ts.Sublist (timesOfKey key log) ∧ ts ≠ []

namespace Covers

variable {all : List Nat} {byKey : AList fun _ : κ => List Nat}

/-- The empty state covers the empty log. -/
theorem empty : Covers ([] : List (κ × Nat)) [] ∅ where
  all := rfl
  byKey key ts h := by
    simp at h

/-- What the state has for a key is part of what the log has for it. -/
theorem getD_lookup (h : Covers log all byKey) (key : κ) :
    ((byKey.lookup key).getD []).Sublist (timesOfKey key log) := by
  cases hlookup : byKey.lookup key with
  | none => exact List.nil_sublist _
  | some ts => exact (h.byKey key ts hlookup).1

/-- Dropping from the front of every queue, whatever the clock says. -/
theorem prune (h : Covers log all byKey) (expired : Nat → Bool) :
    Covers (log.dropWhile fun e => expired e.2) (all.dropWhile expired)
      (retain (fun ts => ts.dropWhile expired) byKey) where
  all := by
    rw [h.all, timesOf_dropWhile]
  byKey key ts hts := by
    obtain ⟨hne, ts', hmem, heq⟩ := mem_lookup_retain.mp hts
    rw [← heq]
    exact ⟨sublist_dropWhile expired (h.byKey key ts' hmem).1, heq ▸ hne⟩

/-- Writing a non-empty queue of a key, with an event that is added to the log or not. -/
theorem insert (h : Covers log all byKey) {log' : List (κ × Nat)} {all' : List Nat}
    {key : κ} {ts : List Nat} (hall : all' = timesOf log')
    (hsublist : ts.Sublist (timesOfKey key log')) (hne : ts ≠ [])
    (hothers : ∀ key', key' ≠ key → timesOfKey key' log' = timesOfKey key' log) :
    Covers log' all' (byKey.insert key ts) where
  all := hall
  byKey key' ts' hts' := by
    by_cases hkey : key' = key
    · subst hkey
      rw [AList.lookup_insert, Option.mem_some_iff] at hts'
      subst hts'
      exact ⟨hsublist, hne⟩
    · rw [AList.lookup_insert_ne hkey] at hts'
      rw [hothers key' hkey]
      exact h.byKey key' ts' hts'

/-- The queues of the keys hold no more than the queue of all. -/
theorem sum_length_le (h : Covers log all byKey) :
    (byKey.entries.map fun e => e.2.length).sum ≤ all.length := by
  have hle : (byKey.entries.map fun e => e.2.length).sum ≤
      (byKey.entries.map fun e => (timesOfKey e.1 log).length).sum :=
    List.sum_le_sum fun e he =>
      (h.byKey e.1 e.2 (AList.mem_lookup_iff.mpr he)).1.length_le
  have hkeys := sum_length_timesOfKey_le byKey.keys_nodup log
  have hmap : (byKey.keys.map fun key => (timesOfKey key log).length) =
      byKey.entries.map fun e => (timesOfKey e.1 log).length := by
    simp [AList.keys, List.keys]
  have hlength : all.length = log.length := by
    rw [h.all, timesOf, List.length_map]
  rw [hmap] at hkeys
  omega

/-- There are no more keys than times, since every key has a time of its own. -/
theorem keys_le (h : Covers log all byKey) : byKey.keys.length ≤ all.length := by
  have hpos := List.length_le_sum_of_one_le (byKey.entries.map fun e => e.2.length) (by
    intro n hn
    obtain ⟨e, he, rfl⟩ := List.mem_map.mp hn
    exact List.length_pos_iff.mpr (h.byKey e.1 e.2 (AList.mem_lookup_iff.mpr he)).2)
  have hsum := h.sum_length_le
  simp only [List.length_map] at hpos
  simp only [AList.keys, List.keys, List.length_map]
  omega

end Covers

end Window
