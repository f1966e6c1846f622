import CppRaft.Fiber.Timer
import CppRaft.Transition.Growing

/-!
# Armed timers

A timer with a callback is in the set of its manager, except while a call has
taken it out.  Every call is made of taking timers out, writing to them, and
putting them back or disarming them.
-/

namespace CppRaft.Fiber

open CppRaft.Container
open CppRaft.Transition

universe u

variable {α : Type u} {a b : Timer α}

/-! ## The comparator -/

theorem Timer.comparator_some : Timer.comparator (some a) (some b) = true ↔
    a.next_ < b.next_ ∨ a.next_ = b.next_ ∧ a.address < b.address := by
  simp only [Timer.comparator, UInt64.lt_iff_toNat_lt, ← UInt64.toNat_inj]
  split_ifs with first second
  · simp only [true_iff]
    omega
  · simp only [false_iff]
    omega
  · rw [decide_eq_true_eq]
    omega

theorem Timer.comparator_strictWeak :
    StrictWeak (Timer.comparator : Option (Timer α) → Option (Timer α) → Bool) where
  irrefl := by
    intro x
    cases x with
    | none => rfl
    | some a => simp [Timer.comparator, UInt64.lt_irrefl]
  trans := by
    intro x y z first second
    cases x with
    | none =>
        cases y with
        | none => cases first
        | some b =>
            cases z with
            | none => cases second
            | some c => rfl
    | some a =>
        cases y with
        | none => cases first
        | some b =>
            cases z with
            | none => cases second
            | some c =>
                rw [comparator_some] at first second ⊢
                simp only [UInt64.lt_iff_toNat_lt, ← UInt64.toNat_inj] at *
                omega
  weak := by
    intro x z first y
    cases x with
    | none =>
        cases z with
        | none => cases first
        | some c =>
            cases y with
            | none => exact Or.inr rfl
            | some b => exact Or.inl rfl
    | some a =>
        cases z with
        | none => cases first
        | some c =>
            cases y with
            | none => exact Or.inr rfl
            | some b =>
                rw [comparator_some] at first ⊢
                rw [comparator_some]
                simp only [UInt64.lt_iff_toNat_lt, ← UInt64.toNat_inj] at *
                omega

/-- Timers at different addresses are comparable. -/
theorem Timer.comparable (apart : a.address ≠ b.address) :
    Timer.comparator (some a) (some b) = true ∨ Timer.comparator (some b) (some a) = true := by
  rw [comparator_some, comparator_some]
  simp only [ne_eq, UInt64.lt_iff_toNat_lt, ← UInt64.toNat_inj] at *
  omega

namespace TimerManager

variable {tm tm' tm'' : TimerManager α} {p q : Nat} {out : List Nat} {timer timer' : Timer α}

theorem before_strictWeak (tm : TimerManager α) : StrictWeak tm.before where
  irrefl := fun _ => Timer.comparator_strictWeak.irrefl _
  trans := fun first second => Timer.comparator_strictWeak.trans first second
  weak := fun first _ => Timer.comparator_strictWeak.weak first _

/-! ## Writing to a timer -/

theorem objects_put_self (found : tm.objects[p]? = some timer) :
    (tm.put p timer').objects[p]? = some timer' := by
  obtain ⟨inside, _⟩ := List.getElem?_eq_some_iff.mp found
  exact List.getElem?_set_self inside

theorem objects_put_of_ne (other : q ≠ p) :
    (tm.put p timer').objects[q]? = tm.objects[q]? :=
  List.getElem?_set_ne other.symm

theorem before_put_of_ne (first : q ≠ p) {r : Nat} (second : r ≠ p) :
    (tm.put p timer').before q r = tm.before q r := by
  rw [before, before, objects_put_of_ne first, objects_put_of_ne second]

/-- The callback of a timer is no part of its key. -/
theorem before_put_cb_ (found : tm.objects[p]? = some timer) (cb : Option α) :
    (tm.put p { timer with cb_ := cb }).before = tm.before := by
  have same : ∀ (q : Nat) (x : Option (Timer α)),
      Timer.comparator (tm.put p { timer with cb_ := cb }).objects[q]? x =
          Timer.comparator tm.objects[q]? x ∧
        Timer.comparator x (tm.put p { timer with cb_ := cb }).objects[q]? =
          Timer.comparator x tm.objects[q]? := by
    intro q x
    by_cases here : q = p
    · subst here
      rw [objects_put_self found, found]
      cases x <;> exact ⟨rfl, rfl⟩
    · rw [objects_put_of_ne here]
      exact ⟨rfl, rfl⟩
  funext q r
  rw [before, before, (same q _).1, (same r _).2]

/-! ## The invariant -/

/-- The timer has a callback. -/
def Armed (tm : TimerManager α) (p : Nat) : Prop :=
  ∃ timer, tm.objects[p]? = some timer ∧ timer.cb_ ≠ none

/-- The timer exists and has no callback. -/
def Spent (tm : TimerManager α) (p : Nat) : Prop :=
  ∃ timer, tm.objects[p]? = some timer ∧ timer.cb_ = none

/-- The set is in order and holds the armed timers, except the ones in `out`
that a call has taken out.  Armed timers have addresses of their own. -/
structure Tidy (out : List Nat) (tm : TimerManager α) : Prop where
  sorted : Sorted tm.before tm.timers_
  mem_timers_ : ∀ {p}, p ∈ tm.timers_ ↔ tm.Armed p ∧ p ∉ out
  armed : ∀ {p}, p ∈ out → tm.Armed p
  nodup : out.Nodup
  apart : ∀ {p q : Nat} {timer timer' : Timer α}, tm.objects[p]? = some timer →
    tm.objects[q]? = some timer' → timer.cb_ ≠ none → timer'.cb_ ≠ none →
    timer.address = timer'.address → p = q

/-- Timers stay, keep their kind, and get no new callback. -/
def Later (tm tm' : TimerManager α) : Prop :=
  ∀ (p : Nat) (timer : Timer α), tm.objects[p]? = some timer →
    ∃ timer', tm'.objects[p]? = some timer' ∧ timer'.recurring_ = timer.recurring_ ∧
      (timer.cb_ = none → timer'.cb_ = none)

theorem Later.refl (tm : TimerManager α) : tm.Later tm :=
  fun _ timer found => ⟨timer, found, rfl, id⟩

theorem Later.trans (first : tm.Later tm') (second : tm'.Later tm'') : tm.Later tm'' := by
  intro p timer found
  obtain ⟨timer', found', kind', null'⟩ := first p timer found
  obtain ⟨timer'', found'', kind'', null''⟩ := second p timer' found'
  exact ⟨timer'', found'', kind''.trans kind', fun null => null'' (null' null)⟩

theorem Later.spent (later : tm.Later tm') (spent : tm.Spent p) : tm'.Spent p := by
  obtain ⟨timer, found, null⟩ := spent
  obtain ⟨timer', found', _, null'⟩ := later p timer found
  exact ⟨timer', found', null' null⟩

theorem Spent.not_armed (spent : tm.Spent p) : ¬ tm.Armed p := by
  rintro ⟨timer, found, armed⟩
  obtain ⟨timer', found', null⟩ := spent
  rw [found, Option.some.injEq] at found'
  subst found'
  exact armed null

theorem Later.put (found : tm.objects[p]? = some timer)
    (kind : timer'.recurring_ = timer.recurring_)
    (null : timer.cb_ = none → timer'.cb_ = none) : tm.Later (tm.put p timer') := by
  intro q old there
  by_cases here : q = p
  · subst here
    rw [found, Option.some.injEq] at there
    subst there
    exact ⟨timer', objects_put_self found, kind, null⟩
  · exact ⟨old, (objects_put_of_ne here).trans there, rfl, id⟩

theorem tidy_new (now : UInt64) : (new now : TimerManager α).Tidy [] where
  sorted := List.Pairwise.nil
  mem_timers_ := by simp [new, Armed]
  armed := by simp
  nodup := List.nodup_nil
  apart := by simp [new]

/-! ## Taking out, writing and putting back -/

/-- Timers that a call takes out of the set. -/
theorem Tidy.takeOut {others : List Nat} (tidy : tm.Tidy [])
    (split : tm.timers_.Perm (out ++ others)) (sub : others.Sublist tm.timers_) :
    ({ tm with timers_ := others } : TimerManager α).Tidy out := by
  have nodup : (out ++ others).Nodup :=
    split.nodup_iff.mp (tidy.sorted.nodup tm.before_strictWeak)
  rw [List.nodup_append] at nodup
  obtain ⟨nodup, _, disjoint⟩ := nodup
  exact
    { sorted := tidy.sorted.sublist sub
      mem_timers_ := by
        intro p
        constructor
        · intro member
          refine ⟨(tidy.mem_timers_.mp (sub.subset member)).1, ?_⟩
          intro taken
          exact disjoint p taken p member rfl
        · rintro ⟨armed, kept⟩
          have member := split.subset (tidy.mem_timers_.mpr ⟨armed, List.not_mem_nil⟩)
          exact (List.mem_append.mp member).resolve_left kept
      armed := by
        intro p taken
        have member := split.symm.subset (List.mem_append_left others taken)
        exact (tidy.mem_timers_.mp member).1
      nodup := nodup
      apart := tidy.apart }

theorem Tidy.erase (tidy : tm.Tidy []) (member : p ∈ tm.timers_) : (tm.erase p).Tidy [p] :=
  tidy.takeOut (List.perm_cons_erase member) List.erase_sublist

/-- An armed timer that is out of the set may be written to. -/
theorem Tidy.put (tidy : tm.Tidy (p :: out)) (found : tm.objects[p]? = some timer)
    (cb : timer'.cb_ = timer.cb_) (address : timer'.address = timer.address) :
    (tm.put p timer').Tidy (p :: out) := by
  have armed : ∀ {q}, (tm.put p timer').Armed q ↔ tm.Armed q := by
    intro q
    by_cases here : q = p
    · subst here
      rw [Armed, Armed, objects_put_self found, found]
      simp [cb]
    · rw [Armed, Armed, objects_put_of_ne here]
  have same : ∀ {q : Nat} {old : Timer α}, (tm.put p timer').objects[q]? = some old →
      ∃ old', tm.objects[q]? = some old' ∧ old.cb_ = old'.cb_ ∧ old.address = old'.address := by
    intro q old there
    by_cases here : q = p
    · subst here
      rw [objects_put_self found, Option.some.injEq] at there
      subst there
      exact ⟨timer, found, cb, address⟩
    · rw [objects_put_of_ne here] at there
      exact ⟨old, there, rfl, rfl⟩
  exact
    { sorted := by
        apply tidy.sorted.congr
        intro q here r there
        have outside : ∀ {r}, r ∈ tm.timers_ → r ≠ p := by
          rintro r member rfl
          exact (tidy.mem_timers_.mp member).2 List.mem_cons_self
        exact before_put_of_ne (outside here) (outside there)
      mem_timers_ := by
        intro q
        rw [armed]
        exact tidy.mem_timers_
      armed := fun taken => armed.mpr (tidy.armed taken)
      nodup := tidy.nodup
      apart := by
        intro q r first second there there' filled filled' equal
        obtain ⟨old, here, cb, address⟩ := same there
        obtain ⟨old', here', cb', address'⟩ := same there'
        rw [cb] at filled
        rw [cb'] at filled'
        rw [address, address'] at equal
        exact tidy.apart here here' filled filled' equal }

/-- A timer that is out of the set is put back. -/
theorem Tidy.insert (tidy : tm.Tidy (p :: out)) : (tm.insert p).Tidy out := by
  obtain ⟨apart, nodup⟩ := List.nodup_cons.mp tidy.nodup
  have comparable : ∀ q ∈ tm.timers_, tm.before p q = true ∨ tm.before q p = true := by
    intro q member
    obtain ⟨⟨other, there, filled'⟩, outside⟩ := tidy.mem_timers_.mp member
    obtain ⟨timer, found, filled⟩ := tidy.armed List.mem_cons_self
    simp only [before, found, there]
    apply Timer.comparable
    intro equal
    have same := tidy.apart found there filled filled' equal
    subst same
    exact outside List.mem_cons_self
  exact
    { sorted := tidy.sorted.insert tm.before_strictWeak
      mem_timers_ := by
        intro q
        change q ∈ Container.insert tm.before p tm.timers_ ↔ tm.Armed q ∧ q ∉ out
        rw [mem_insert comparable, tidy.mem_timers_, List.mem_cons]
        constructor
        · rintro (rfl | ⟨armed, outside⟩)
          · exact ⟨tidy.armed List.mem_cons_self, apart⟩
          · exact ⟨armed, fun taken => outside (Or.inr taken)⟩
        · rintro ⟨armed, outside⟩
          by_cases here : q = p
          · exact Or.inl here
          · exact Or.inr ⟨armed, by simp [here, outside]⟩
      armed := fun taken => tidy.armed (List.mem_cons_of_mem p taken)
      nodup := nodup
      apart := tidy.apart }

/-- A timer that is out of the set loses its callback. -/
theorem Tidy.disarm (tidy : tm.Tidy (p :: out)) (found : tm.objects[p]? = some timer) :
    (tm.put p { timer with cb_ := none }).Tidy out := by
  obtain ⟨apart, nodup⟩ := List.nodup_cons.mp tidy.nodup
  have armed : ∀ {q}, (tm.put p { timer with cb_ := none }).Armed q ↔ tm.Armed q ∧ q ≠ p := by
    intro q
    by_cases here : q = p
    · subst here
      rw [Armed, objects_put_self found]
      simp
    · rw [Armed, Armed, objects_put_of_ne here]
      simp [here]
  have outside : ∀ {q : Nat} {old : Timer α},
      (tm.put p { timer with cb_ := none }).objects[q]? = some old → old.cb_ ≠ none →
        tm.objects[q]? = some old := by
    intro q old there filled
    have other := (armed.mp ⟨old, there, filled⟩).2
    rwa [objects_put_of_ne other] at there
  exact
    { sorted := by
        change Sorted (tm.put p { timer with cb_ := none }).before tm.timers_
        rw [before_put_cb_ found]
        exact tidy.sorted
      mem_timers_ := by
        intro q
        rw [armed]
        change q ∈ tm.timers_ ↔ _
        rw [tidy.mem_timers_, List.mem_cons, not_or, and_assoc]
      armed := by
        intro q taken
        refine armed.mpr ⟨tidy.armed (List.mem_cons_of_mem p taken), ?_⟩
        rintro rfl
        exact apart taken
      nodup := nodup
      apart := by
        intro q r first second there there' filled filled' equal
        exact tidy.apart (outside there filled) (outside there' filled') filled filled' equal }

/-- A new timer is made outside of the set. -/
theorem Tidy.append (tidy : tm.Tidy []) {made : Timer α} (filled : made.cb_ ≠ none)
    (free : tm.Free made.address) :
    ({ tm with objects := tm.objects ++ [made] } : TimerManager α).Tidy [tm.objects.length] := by
  have outside : ∀ {q}, q ∈ tm.timers_ → q < tm.objects.length := by
    intro q member
    obtain ⟨⟨timer, found, _⟩, _⟩ := tidy.mem_timers_.mp member
    exact (List.getElem?_eq_some_iff.mp found).1
  have same : ∀ {q}, q < tm.objects.length → (tm.objects ++ [made])[q]? = tm.objects[q]? :=
    fun inside => List.getElem?_append_left inside
  have armed : ∀ {q}, ({ tm with objects := tm.objects ++ [made] } : TimerManager α).Armed q ↔
      tm.Armed q ∨ q = tm.objects.length := by
    intro q
    simp only [Armed, getElem?_concat_eq_some]
    constructor
    · rintro ⟨timer, found | ⟨rfl, rfl⟩, armed⟩
      · exact Or.inl ⟨timer, found, armed⟩
      · exact Or.inr rfl
    · rintro (⟨timer, found, armed⟩ | rfl)
      · exact ⟨timer, Or.inl found, armed⟩
      · exact ⟨made, Or.inr ⟨rfl, rfl⟩, filled⟩
  -- An armed timer is in the set, so it is not at the new address.
  have elsewhere : ∀ {q : Nat} {timer : Timer α}, tm.objects[q]? = some timer →
      timer.cb_ ≠ none → timer.address ≠ made.address := by
    intro q timer found armed equal
    apply free q (tidy.mem_timers_.mpr ⟨⟨timer, found, armed⟩, List.not_mem_nil⟩)
    rw [found, ← equal]
    rfl
  exact
    { sorted := by
        apply tidy.sorted.congr
        intro q here r there
        simp only [before, same (outside here), same (outside there)]
      mem_timers_ := by
        intro q
        rw [armed, List.mem_singleton]
        change q ∈ tm.timers_ ↔ _
        constructor
        · intro member
          exact ⟨Or.inl (tidy.mem_timers_.mp member).1, (outside member).ne⟩
        · rintro ⟨old | new, other⟩
          · exact tidy.mem_timers_.mpr ⟨old, List.not_mem_nil⟩
          · exact absurd new other
      armed := by
        intro q taken
        exact armed.mpr (Or.inr (List.mem_singleton.mp taken))
      nodup := List.pairwise_singleton _ _
      apart := by
        intro q r timer timer' found found' filled filled' equal
        rcases getElem?_concat_eq_some.mp found with old | ⟨here, new⟩
        · rcases getElem?_concat_eq_some.mp found' with old' | ⟨_, new'⟩
          · exact tidy.apart old old' filled filled' equal
          · rw [new'] at equal
            exact absurd equal (elsewhere old filled)
        · rcases getElem?_concat_eq_some.mp found' with old' | ⟨there, _⟩
          · rw [new] at equal
            exact absurd equal.symm (elsewhere old' filled')
          · exact here.trans there.symm }

theorem Tidy.addTimerLocked (tidy : tm.Tidy (p :: out)) : (tm.addTimerLocked p).1.Tidy out := by
  have inserted := tidy.insert
  exact ⟨inserted.sorted, inserted.mem_timers_, inserted.armed, inserted.nodup, inserted.apart⟩

/-- An armed timer of the set is found. -/
theorem Tidy.find (tidy : tm.Tidy []) (armed : tm.Armed p) : tm.find p = some p :=
  find_of_mem tm.before_strictWeak tidy.sorted (tidy.mem_timers_.mpr ⟨armed, List.not_mem_nil⟩)

/-! ## The calls -/

/-- The manager is tidy again after a call, and no timer is lost. -/
structure Called (tm tm' : TimerManager α) : Prop where
  tidy : tm'.Tidy []
  later : tm.Later tm'

/-- A timer that is taken out gets a new key. -/
theorem Tidy.rekey (tidy : tm.Tidy []) (found : tm.objects[p]? = some timer)
    (armed : timer.cb_ ≠ none) (ms next : UInt64) :
    ((tm.erase p).put p { timer with ms_ := ms, next_ := next }).Tidy [p] ∧
      tm.Later ((tm.erase p).put p { timer with ms_ := ms, next_ := next }) := by
  have member := tidy.mem_timers_.mpr ⟨⟨timer, found, armed⟩, List.not_mem_nil⟩
  have later : tm.Later (tm.put p { timer with ms_ := ms, next_ := next }) :=
    Later.put found rfl id
  exact ⟨(tidy.erase member).put found rfl rfl, later⟩

theorem Tidy.addTimer (tidy : tm.Tidy []) {address : UInt64} (free : tm.Free address)
    (ms : UInt64) (cb : α) (recurring : Bool) (now : UInt64) :
    tm.Called (tm.addTimer ms cb recurring now address).1 := by
  constructor
  · exact (tidy.append (Option.some_ne_none cb) free).addTimerLocked
  · intro q timer found
    exact ⟨timer, getElem?_append_of_eq_some found, rfl, id⟩

theorem Tidy.cancel (tidy : tm.Tidy []) (found : tm.objects[p]? = some timer) :
    ∃ tm' answer, tm.cancel p = some (tm', answer) ∧ tm.Called tm' ∧
      (answer = true → tm'.Spent p) := by
  rw [TimerManager.cancel, found]
  cases filled : timer.cb_ with
  | none => exact ⟨tm, false, by simp [filled], ⟨tidy, Later.refl tm⟩, by simp⟩
  | some cb =>
      have armed : tm.Armed p := ⟨timer, found, by simp [filled]⟩
      have there : (tm.put p { timer with cb_ := none }).find p = some p := by
        rw [TimerManager.find, before_put_cb_ found]
        exact tidy.find armed
      have member := tidy.mem_timers_.mpr ⟨armed, List.not_mem_nil⟩
      refine ⟨(tm.put p { timer with cb_ := none }).erase p, true, ?_, ⟨?_, ?_⟩, ?_⟩
      · simp only [filled, Option.isSome_some, if_true, there]
      · exact (tidy.erase member).disarm found
      · exact Later.put found rfl (fun _ => rfl)
      · intro _
        exact ⟨_, objects_put_self found, rfl⟩

theorem Tidy.refresh (tidy : tm.Tidy []) (found : tm.objects[p]? = some timer) (now : UInt64) :
    ∃ tm' answer, tm.refresh p now = some (tm', answer) ∧ tm.Called tm' := by
  rw [TimerManager.refresh, found]
  cases filled : timer.cb_ with
  | none => exact ⟨tm, false, by simp [filled], tidy, Later.refl tm⟩
  | some cb =>
      have armed : timer.cb_ ≠ none := by simp [filled]
      have there := tidy.find ⟨timer, found, armed⟩
      obtain ⟨out, later⟩ := tidy.rekey found armed timer.ms_ (now + timer.ms_)
      exact ⟨_, true, by simp [filled, there], out.insert, later⟩

theorem Tidy.reset (tidy : tm.Tidy []) (found : tm.objects[p]? = some timer) (ms : UInt64)
    (from_now : Bool) (now : UInt64) :
    ∃ tm' answer, tm.reset p ms from_now now = some (tm', answer) ∧ tm.Called tm' := by
  rw [TimerManager.reset, found]
  dsimp only
  by_cases same : ms = timer.ms_ ∧ from_now = false
  · rw [if_pos same]
    exact ⟨tm, true, rfl, tidy, Later.refl tm⟩
  · rw [if_neg same]
    cases filled : timer.cb_ with
    | none => exact ⟨tm, true, rfl, tidy, Later.refl tm⟩
    | some cb =>
        have armed : timer.cb_ ≠ none := by simp [filled]
        obtain ⟨out, later⟩ := tidy.rekey found armed ms
          ((if from_now then now else timer.next_ - timer.ms_) + ms)
        rw [tidy.find ⟨timer, found, armed⟩]
        rw [filled] at out later
        exact ⟨_, true, rfl, out.addTimerLocked, later⟩

theorem Tidy.getNextTimer (tidy : tm.Tidy []) (now : UInt64) :
    ∃ tm' wait, tm.getNextTimer now = some (tm', wait) ∧ tm.Called tm' := by
  have called : tm.Called { tm with tickled_ := false } :=
    ⟨⟨tidy.sorted, tidy.mem_timers_, tidy.armed, tidy.nodup, tidy.apart⟩, Later.refl tm⟩
  cases set : tm.timers_ with
  | nil => exact ⟨_, ~~~0, by simp [TimerManager.getNextTimer, set], called⟩
  | cons p rest =>
      have member : p ∈ tm.timers_ := set ▸ List.mem_cons_self
      obtain ⟨⟨timer, found, _⟩, _⟩ := tidy.mem_timers_.mp member
      refine ⟨_, if now ≥ timer.next_ then 0 else timer.next_ - now, ?_, called⟩
      simp only [TimerManager.getNextTimer, set, found, Option.map_some]

end TimerManager

end CppRaft.Fiber
