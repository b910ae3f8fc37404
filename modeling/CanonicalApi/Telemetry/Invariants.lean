import CanonicalApi.Telemetry

/-!
# `CanonicalApi.Telemetry.Invariants`: what the telemetry and its threads keep

`Fits` is what a thread relies on, and `Sound` what holds of the whole process: the locks and
the count agree with the threads, every thread has what it relies on, and the slot holds no
closed logger. A move keeps what the other threads rely on because of the two locks
(`Advance.fits_other`). `Sound` holds in every state of every run (`sound_of_reachable`).
-/

set_option autoImplicit false

namespace CanonicalApi

open Transition (System)
open Locks (Mutex RwLock)

namespace Telemetry

/-- The stages with a read guard of the slot. -/
def Stage.reads : Stage → Bool
  | .logging _ .found | .logging _ (.emitting _) => true
  | _ => false

/-- The stages with the write guard of the slot. -/
def Stage.writes : Stage → Bool
  | .logging _ .insert | .take => true
  | _ => false

/-- The stages with the guard of the lifecycle mutex. -/
def Stage.holds : Stage → Bool
  | .register | .release | .retire | .take | .close _ => true
  | _ => false

/-- The stages of a live telemetry guard: it is counted, and its drop has not yet taken it off
the count. -/
def Stage.live : Stage → Bool
  | .logging .init _ | .guard | .drop | .release => true
  | _ => false

/-- The stages of `retire_logger`. -/
def Stage.retires : Stage → Bool
  | .retire | .take | .close _ => true
  | _ => false

/-- The stages between an empty slot that was found and the logger that is built for it. -/
def Stage.builds : Stage → Bool
  | .logging _ .build | .logging _ .insert => true
  | _ => false

/-- The stages after the closure has been called. -/
def Stage.ran : Stage → Bool
  | .lock | .register | .overflow => false
  | .logging _ (.emitting _) => true
  | .logging _ _ => false
  | _ => true

/-- What a thread relies on at its stage: the logger that it writes to is there, the one that it
closes is not, and its own counters tell what it has done. -/
structure Fits (s : Telemetry) (t : Thread) : Prop where
  emitting : ∀ {caller : Caller} {l : Nat}, t.stage = .logging caller (.emitting l) →
    s.logger = some l
  retiring : t.stage.retires = true → s.active = 0
  closing : ∀ {l : Nat}, t.stage = .close (some l) → s.logger ≠ some l ∧ l < s.builds
  building : t.stage.builds = true → t.rounds ≤ s.retirements
  rounds : t.rounds ≤ s.retirements + s.logger.isSome.toNat
  runs : t.runs = t.stage.ran.toNat
  emit : t.emit = !t.stage.ran
  unbroken : ∀ {caller : Caller}, t.stage ≠ .logging caller .broken
  counted : t.stage ≠ .underflow

variable {usizeMax : Nat}

/-- What a telemetry with its threads keeps. The locks guard the stages that need them, and `active`
counts the threads that have a guard. -/
structure Sound (s : Process) : Prop where
  slot : s.telemetry.slot.Guarded (·.stage.reads) (·.stage.writes) s.threads
  lifecycle : s.telemetry.lifecycle.Guarded (·.stage.holds) s.threads
  active : s.threads.countP (·.stage.live) = s.telemetry.active
  threads : ∀ {i : Nat} {t : Thread}, s.threads[i]? = some t → Fits s.telemetry t
  logger : ∀ {l : Nat}, s.telemetry.logger = some l →
    l < s.telemetry.builds ∧ l ∉ s.telemetry.closed
  closed : ∀ {l : Nat}, l ∈ s.telemetry.closed → l < s.telemetry.builds

/-- A logger that is built is not one of the loggers before it. -/
theorem getOrInsert_logger {s : Telemetry} :
    s.getOrInsert.logger = s.logger ∧ s.getOrInsert.builds = s.builds ∧ s.logger ≠ none ∨
      s.logger = none ∧ s.getOrInsert.logger = some s.builds ∧
        s.getOrInsert.builds = s.builds + 1 := by
  unfold getOrInsert
  cases hlogger : s.logger <;> simp [hlogger]

/-- Afterwards there is a logger. -/
@[simp] theorem getOrInsert_isSome (s : Telemetry) : s.getOrInsert.logger.isSome = true := by
  unfold getOrInsert
  cases hlogger : s.logger <;> simp [hlogger]

/-- It starts no lifetime. -/
@[simp] theorem getOrInsert_active (s : Telemetry) : s.getOrInsert.active = s.active := by
  unfold getOrInsert
  cases s.logger <;> rfl

/-- It does not take the lifecycle lock. -/
@[simp] theorem getOrInsert_lifecycle (s : Telemetry) :
    s.getOrInsert.lifecycle = s.lifecycle := by
  unfold getOrInsert
  cases s.logger <;> rfl

/-- It closes no logger. -/
@[simp] theorem getOrInsert_closed (s : Telemetry) : s.getOrInsert.closed = s.closed := by
  unfold getOrInsert
  cases s.logger <;> rfl

/-- It retires no logger. -/
@[simp] theorem getOrInsert_retirements (s : Telemetry) :
    s.getOrInsert.retirements = s.retirements := by
  unfold getOrInsert
  cases s.logger <;> rfl

/-- A thread that moves still has what it relies on. A guard that is dropped must have been
counted. -/
theorem Advance.fits {s s' : Telemetry} {t t' : Thread} (h : Advance usizeMax s t s' t')
    (ht : Fits s t) (hpos : t.stage.live = true → s.active ≠ 0)
    (hlogger : ∀ {l : Nat}, s.logger = some l → l < s.builds) : Fits s' t' := by
  obtain ⟨hemitting, hretiring, hclosing, hbuilding, hrounds, hruns, hemit, hunbroken,
    hcounted⟩ := ht
  cases h with
  | @emitted caller logger hstage =>
    cases caller <;> constructor <;>
      simp_all [Stage.retires, Stage.builds, Stage.ran, Caller.resume]
  | insert hstage =>
    have hround : t.rounds ≤ s.retirements := hbuilding (by rw [hstage]; rfl)
    constructor <;> simp_all [Stage.retires, Stage.builds, Stage.ran]
  | take hstage =>
    constructor <;> simp_all [Stage.retires, Stage.builds, Stage.ran, Telemetry.take]
  | close hstage =>
    constructor <;> simp_all [Stage.retires, Stage.builds, Stage.ran, Telemetry.close]
  | _ => constructor <;> simp_all [Stage.retires, Stage.builds, Stage.ran, Stage.live]

/-- Another thread keeps what it relies on. The locks keep it from an emission while the slot
is emptied, and from `retire_logger` while a guard is counted. -/
theorem Advance.fits_other {s s' : Telemetry} {t t' u : Thread}
    (h : Advance usizeMax s t s' t') (hu : Fits s u)
    (hslot : t.stage.writes = true → u.stage.reads = false)
    (hlifecycle : t.stage.holds = true → u.stage.holds = false) : Fits s' u := by
  cases h with
  -- The lock keeps every retiring thread away while another one registers.
  | register hstage hlt =>
    have hfree := hlifecycle (by rw [hstage]; rfl)
    refine { hu with retiring := fun hretires => ?_ }
    cases hplace : u.stage <;> simp_all [Stage.holds, Stage.retires]
  | shared hstage hmore =>
    refine { hu with retiring := fun hretires => ?_ }
    have hzero := hu.retiring hretires
    show s.active - 1 = 0
    omega
  | last hstage hone => exact { hu with retiring := fun _ => rfl }
  -- A logger that is there is kept, and a new one has a new number.
  | insert hstage =>
    have hbuilt := getOrInsert_logger (s := s)
    refine { hu with
      emitting := fun hplace => ?_
      closing := fun hplace => ?_
      retiring := by simpa using hu.retiring
      building := by simpa using hu.building
      rounds := ?_ }
    · have hl := hu.emitting hplace
      rcases hbuilt with ⟨hsame, -⟩ | ⟨hnone, -⟩
      · exact hsame.trans hl
      · rw [hnone] at hl
        cases hl
    · have hl := hu.closing hplace
      rcases hbuilt with ⟨hsame, hbuilds, -⟩ | ⟨-, hnew, hbuilds⟩
      · exact ⟨hsame ▸ hl.1, hbuilds ▸ hl.2⟩
      · show s.getOrInsert.logger ≠ _ ∧ _ < s.getOrInsert.builds
        rw [hnew, hbuilds, ne_eq, Option.some.injEq]
        omega
    · have hr := hu.rounds
      show _ ≤ s.getOrInsert.retirements + s.getOrInsert.logger.isSome.toNat
      rw [getOrInsert_retirements]
      rcases hbuilt with ⟨hsame, -⟩ | ⟨hnone, hnew, -⟩
      · rw [hsame]
        exact hr
      · rw [hnew]
        rw [hnone] at hr
        exact Nat.le_succ_of_le hr
  -- The slot is taken under its write lock, while no other thread emits.
  | take hstage =>
    have hfree := hslot (by rw [hstage]; rfl)
    refine { hu with
      emitting := fun hplace => ?_
      closing := fun hplace => ⟨nofun, (hu.closing hplace).2⟩
      building := fun hplace => Nat.le_add_right_of_le (hu.building hplace)
      rounds := hu.rounds }
    rw [hplace] at hfree
    cases hfree
  | close hstage => exact { hu with }
  | _ => exact { hu with }

/-- The slot agrees with the threads after a move. -/
theorem Advance.slot {s s' : Telemetry} {threads : List Thread} {i : Nat} {t t' : Thread}
    (h : Advance usizeMax s t s' t') (hi : threads[i]? = some t)
    (hs : s.slot.Guarded (·.stage.reads) (·.stage.writes) threads) :
    s'.slot.Guarded (·.stage.reads) (·.stage.writes) (threads.set i t') := by
  cases h with
  | read hstage hl => exact hs.read hi (by rw [hstage]; rfl) rfl (by rw [hstage]; rfl) hl
  | emit hstage => exact hs.keep hi (by rw [hstage]; rfl) (by rw [hstage]; rfl)
  | broken hstage | empty hstage =>
    exact hs.unread hi (by rw [hstage]; rfl) rfl (by rw [hstage]; rfl)
  | @emitted caller _ hstage =>
    exact hs.unread hi (by rw [hstage]; rfl) (by cases caller <;> rfl)
      (by rw [hstage]; cases caller <;> rfl)
  | build hstage hl => exact hs.write hi (by rw [hstage]; rfl) rfl (by rw [hstage]; rfl) hl
  | insert hstage => exact hs.unwrite hi (by rw [hstage]; rfl) rfl (by rw [hstage]; rfl)
  | retire hstage hl => exact hs.write hi (by rw [hstage]; rfl) rfl (by rw [hstage]; rfl) hl
  | take hstage => exact hs.unwrite hi (by rw [hstage]; rfl) rfl (by rw [hstage]; rfl)
  | lock hstage | register hstage | overflow hstage | drop hstage | underflow hstage
  | last hstage | shared hstage | close hstage =>
    exact hs.keep hi (by rw [hstage]; rfl) (by rw [hstage]; rfl)

/-- The lifecycle mutex agrees with the threads after a move. -/
theorem Advance.lifecycle {s s' : Telemetry} {threads : List Thread} {i : Nat} {t t' : Thread}
    (h : Advance usizeMax s t s' t') (hi : threads[i]? = some t)
    (hs : s.lifecycle.Guarded (·.stage.holds) threads) :
    s'.lifecycle.Guarded (·.stage.holds) (threads.set i t') := by
  cases h with
  | lock hstage hm | drop hstage hm => exact hs.lock hi (by rw [hstage]; rfl) rfl hm
  | register hstage | overflow hstage | underflow hstage | shared hstage | close hstage =>
    exact hs.unlock hi (by rw [hstage]; rfl) rfl
  | @emitted caller _ hstage =>
    exact hs.keep hi (by rw [hstage]; cases caller <;> rfl)
  | insert hstage =>
    show s.getOrInsert.lifecycle.Guarded _ _
    rw [getOrInsert_lifecycle]
    exact hs.keep hi (by rw [hstage]; rfl)
  | read hstage | emit hstage | broken hstage | empty hstage | build hstage | last hstage
  | retire hstage | take hstage => exact hs.keep hi (by rw [hstage]; rfl)

/-- The count is the number of the live guards after a move. -/
theorem Advance.active {s s' : Telemetry} {threads : List Thread} {i : Nat} {t t' : Thread}
    (h : Advance usizeMax s t s' t') (hi : threads[i]? = some t)
    (hs : threads.countP (·.stage.live) = s.active) :
    (threads.set i t').countP (·.stage.live) = s'.active := by
  -- Replacing one thread moves the count by what the stage of that thread says.
  have hcount := Locks.countP_set_add (p := (·.stage.live)) t' hi
  rw [hs] at hcount
  cases h with
  | @emitted caller _ hstage | @read caller _ hstage | @broken caller _ hstage
  | @emit caller _ hstage | @build caller _ hstage =>
    rw [hstage] at hcount
    cases caller <;> exact Nat.add_right_cancel hcount
  | @empty caller hstage =>
    rw [hstage] at hcount
    cases caller <;> exact Nat.add_right_cancel hcount
  | @insert caller hstage =>
    show _ = s.getOrInsert.active
    rw [getOrInsert_active]
    rw [hstage] at hcount
    cases caller <;> exact Nat.add_right_cancel hcount
  -- A guard that is dropped is counted, so that the counter was not zero.
  | underflow hstage hzero =>
    rw [hstage, hzero] at hcount
    exact absurd hcount (by simp [Stage.live])
  | register hstage =>
    rw [hstage] at hcount
    exact hcount
  | last hstage hone =>
    rw [hstage, hone] at hcount
    exact Nat.add_right_cancel hcount
  | shared hstage hmore =>
    rw [hstage] at hcount
    exact Nat.eq_sub_of_add_eq hcount
  | lock hstage | overflow hstage | drop hstage | retire hstage | take hstage | close hstage =>
    rw [hstage] at hcount
    exact Nat.add_right_cancel hcount

/-- The slot holds no closed logger after a move. -/
theorem Advance.logger {s s' : Telemetry} {t t' : Thread} (h : Advance usizeMax s t s' t')
    (ht : Fits s t)
    (hlogger : ∀ {l : Nat}, s.logger = some l → l < s.builds ∧ l ∉ s.closed)
    (hclosed : ∀ {l : Nat}, l ∈ s.closed → l < s.builds) :
    (∀ {l : Nat}, s'.logger = some l → l < s'.builds ∧ l ∉ s'.closed) ∧
      ∀ {l : Nat}, l ∈ s'.closed → l < s'.builds := by
  cases h with
  | insert hstage =>
    show (∀ {l : Nat}, s.getOrInsert.logger = some l →
        l < s.getOrInsert.builds ∧ l ∉ s.getOrInsert.closed) ∧
      ∀ {l : Nat}, l ∈ s.getOrInsert.closed → l < s.getOrInsert.builds
    rw [getOrInsert_closed]
    rcases getOrInsert_logger (s := s) with ⟨hsame, hbuilds, -⟩ | ⟨-, hnew, hbuilds⟩
    · rw [hsame, hbuilds]
      exact ⟨hlogger, hclosed⟩
    · -- A new logger has the number of the builds so far, which no closed one has.
      rw [hnew, hbuilds]
      refine ⟨fun heq => ?_, fun hl => Nat.lt_succ_of_lt (hclosed hl)⟩
      cases heq
      exact ⟨Nat.lt_succ_self _, fun hl => Nat.lt_irrefl _ (hclosed hl)⟩
  | take hstage => exact ⟨nofun, hclosed⟩
  | @close retired hstage =>
    -- The logger that a thread closes was taken out of the slot before.
    have hretired : ∀ l ∈ retired.toList, s.logger ≠ some l ∧ l < s.builds := by
      intro l hl
      rw [Option.mem_toList] at hl
      exact ht.closing (hl ▸ hstage)
    refine ⟨fun {l} hl => ⟨(hlogger hl).1, fun hmem => ?_⟩, fun hmem => ?_⟩
    · rcases List.mem_append.mp hmem with hnew | hold
      · exact (hretired l hnew).1 hl
      · exact (hlogger hl).2 hold
    · rcases List.mem_append.mp hmem with hnew | hold
      · exact (hretired _ hnew).2
      · exact hclosed hold
  | _ => exact ⟨hlogger, hclosed⟩

/-- Every step keeps this. -/
theorem Sound.step {s s' : Process} {a : Action} (hs : Sound s)
    (h : Step usizeMax s a s') : Sound s' := by
  cases h with
  -- A thread that starts holds no lock and has run nothing.
  | init | logRpcError =>
    refine ⟨hs.slot.append rfl rfl, hs.lifecycle.append rfl, ?_, fun {i t} ht => ?_, hs.logger,
      hs.closed⟩
    · rw [List.countP_append, hs.active]
      rfl
    · rcases List.mem_append.mp (List.mem_of_getElem? ht) with hold | hnew
      · obtain ⟨j, hj⟩ := List.mem_iff_getElem?.mp hold
        exact hs.threads hj
      · rw [List.mem_singleton] at hnew
        subst hnew
        exact ⟨nofun, nofun, nofun, nofun, Nat.zero_le _, rfl, rfl, nofun, nofun⟩
  -- A guard that is dropped stays counted until it is released.
  | @dropGuard i t ht hguard =>
    refine ⟨hs.slot.keep ht (by rw [hguard]; rfl) (by rw [hguard]; rfl),
      hs.lifecycle.keep ht (by rw [hguard]; rfl), ?_, fun hu => ?_, hs.logger, hs.closed⟩
    · have hcount := Locks.countP_set_add (p := (·.stage.live)) { t with stage := .drop } ht
      rw [hs.active, hguard] at hcount
      exact Nat.add_right_cancel hcount
    · have hfits := hs.threads ht
      rcases Locks.getElem?_set_cases hu with ⟨-, rfl⟩ | ⟨-, hu⟩
      · refine ⟨nofun, nofun, nofun, nofun, hfits.rounds, ?_, ?_, nofun, nofun⟩
        · rw [hfits.runs, hguard]
          rfl
        · rw [hfits.emit, hguard]
          rfl
      · exact hs.threads hu
  -- The thread that moves keeps its own facts, and the locks keep those of the others.
  | @advance i t t' telemetry ht hmove =>
    have hfits := hs.threads ht
    obtain ⟨hlogger, hclosed⟩ := hmove.logger hfits hs.logger hs.closed
    refine ⟨hmove.slot ht hs.slot, hmove.lifecycle ht hs.lifecycle, hmove.active ht hs.active,
      fun hu => ?_, hlogger, hclosed⟩
    rcases Locks.getElem?_set_cases hu with ⟨-, rfl⟩ | ⟨hne, hu⟩
    · refine hmove.fits hfits (fun hlive => ?_) fun hl => (hs.logger hl).1
      have hpos := Locks.countP_pos_of (p := (·.stage.live)) ht hlive
      rw [hs.active] at hpos
      exact Nat.pos_iff_ne_zero.mp hpos
    · refine hmove.fits_other (hs.threads hu) (fun hwrites => ?_) fun hholds => ?_
      · exact hs.slot.excludes ht hwrites (List.mem_of_getElem? hu)
      · rw [← Bool.not_eq_true]
        exact fun hother => hne (hs.lifecycle.unique ht hu hholds hother)

/-- It holds in every state of every run. -/
theorem sound_of_reachable {s : Process} (hs : (system usizeMax).Reachable s) : Sound s := by
  refine hs.induct (fun s h0 => ?_) fun s a s' _ ih _ h => ih.step (step_of_next h)
  obtain rfl := h0
  exact ⟨⟨rfl, rfl, nofun⟩, rfl, rfl, nofun, nofun, nofun⟩

end Telemetry

end CanonicalApi
