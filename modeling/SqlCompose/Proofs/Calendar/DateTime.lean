import SqlCompose.Calendar.DateTime
import SqlCompose.Proofs.Calendar.Date

/-!
# Moments, their nanoseconds and what is shown of them

A moment outside of leap seconds is known by its nanoseconds. `ofNanos?_eq_some` says that the
moment that is found for nanoseconds is the one that has them. A moment in a leap second is shown
with the second that follows; that is the second 60 if the leap second closes a minute, and the next
second of the minute otherwise, so that only the former is known by what is shown (`shown_eq_self`).
-/

namespace SqlCompose.Calendar

/-- Four numbers name a time of day when each is in its range. -/
theorem isClock_iff {hour minute second nano : Nat} :
    isClock hour minute second nano = true ↔
      hour < 24 ∧ minute < 60 ∧ second < 60 ∧ nano < 2 * nanosPerSecond := decide_eq_true_iff

/-- The time of day that is found for four numbers is the one that has them. -/
theorem Clock.of?_eq_some {hour minute second nano : Nat} {c : Clock} :
    Clock.of? hour minute second nano = some c ↔
      c.hour = hour ∧ c.minute = minute ∧ c.second = second ∧ c.nano = nano := by
  unfold Clock.of?
  constructor
  · intro h
    split at h
    · obtain rfl := Option.some.inj h
      exact ⟨rfl, rfl, rfl, rfl⟩
    · cases h
  · rintro ⟨rfl, rfl, rfl, rfl⟩
    rw [dif_pos c.in_day]

namespace Clock

/-- A time of day is in a leap second when its nanoseconds are beyond those of a second. -/
theorem inLeapSecond_eq_false {t : Clock} : t.inLeapSecond = false ↔ t.nano < nanosPerSecond := by
  simp [inLeapSecond]

/-- Outside of leap seconds, the second and the nanoseconds are shown as they are. -/
theorem ofShown?_of_lt {hour minute second fraction : Nat} (h : second < 60) :
    ofShown? hour minute second fraction = of? hour minute second fraction := if_neg (by omega)

/-- The second 60 is the leap second that closes a minute. -/
theorem ofShown?_sixty (hour minute fraction : Nat) :
    ofShown? hour minute 60 fraction = of? hour minute 59 (nanosPerSecond + fraction) := rfl

/-- The time of day that is shown in the same way and is no leap second within a minute: such a leap
second is shown as the second that follows. -/
def shown (t : Clock) : Clock :=
  if h : t.inLeapSecond = true ∧ t.second < 59 then
    { t with
      second := t.second + 1
      nano := t.nano - nanosPerSecond
      in_day := by
        have hclock := isClock_iff.mp t.in_day
        exact isClock_iff.mpr ⟨hclock.1, hclock.2.1, by omega, by omega⟩ }
  else t

/-- Only leap seconds within a minute are shown as another time of day. -/
theorem shown_eq_self {t : Clock} : t.shown = t ↔ (t.inLeapSecond = true → t.second = 59) := by
  obtain ⟨-, -, hsecond, -⟩ := isClock_iff.mp t.in_day
  unfold shown
  split
  · rename_i h
    refine iff_of_false (fun heq => ?_) (fun hclosing => ?_)
    · have hnext : t.second + 1 = t.second := congrArg Clock.second heq
      omega
    · have hlast := hclosing h.1
      omega
  · rename_i h
    refine iff_of_true rfl fun hleap => ?_
    have hlast : ¬ t.second < 59 := fun hlt => h ⟨hleap, hlt⟩
    omega

/-- What is shown of a time of day is found as the time of day that it shows. -/
theorem ofShown?_self (t : Clock) :
    ofShown? t.hour t.minute t.shownSecond t.fraction = some t.shown := by
  obtain ⟨-, -, hsecond, hnano⟩ := isClock_iff.mp t.in_day
  unfold nanosPerSecond at hnano
  by_cases hleap : t.inLeapSecond = true
  · have hbeyond : 1000000000 ≤ t.nano := of_decide_eq_true hleap
    have hnext : t.shownSecond = t.second + 1 := by
      unfold shownSecond nanosPerSecond
      omega
    by_cases hlast : t.second = 59
    · have hself : t.shown = t := shown_eq_self.mpr fun _ => hlast
      rw [hself, hnext, hlast, ofShown?_sixty, of?_eq_some]
      refine ⟨rfl, rfl, hlast, ?_⟩
      unfold fraction nanosPerSecond
      omega
    · have hwithin : t.inLeapSecond = true ∧ t.second < 59 := ⟨hleap, by omega⟩
      rw [hnext, ofShown?_of_lt (by omega), of?_eq_some, shown, dif_pos hwithin]
      refine ⟨rfl, rfl, rfl, ?_⟩
      unfold fraction nanosPerSecond
      dsimp only
      omega
  · have hself : t.shown = t := shown_eq_self.mpr fun h => absurd h hleap
    have hwithin : t.nano < 1000000000 := inLeapSecond_eq_false.mp (by simpa using hleap)
    have hsame : t.shownSecond = t.second := by
      unfold shownSecond nanosPerSecond
      omega
    rw [hself, hsame, ofShown?_of_lt hsecond, of?_eq_some]
    refine ⟨rfl, rfl, rfl, ?_⟩
    unfold fraction nanosPerSecond
    omega

end Clock

namespace DateTime

/-- The moment that is shown in the same way and is no leap second within a minute. -/
def shown (t : DateTime) : DateTime := { t with clock := t.clock.shown }

/-- Only leap seconds within a minute are shown as another moment. -/
theorem shown_eq_self {t : DateTime} :
    t.shown = t ↔ (t.clock.inLeapSecond = true → t.clock.second = 59) := by
  rw [← Clock.shown_eq_self]
  obtain ⟨date, clock⟩ := t
  simp [shown]

/-- A moment is found for nanoseconds if and only if it has them and is in no leap second. -/
theorem ofNanos?_eq_some {n : Int} {t : DateTime} :
    ofNanos? n = some t ↔ t.nanos = n ∧ t.clock.inLeapSecond = false := by
  obtain ⟨hhour, hminute, hsecond, hnano⟩ := isClock_iff.mp t.clock.in_day
  rw [Clock.inLeapSecond_eq_false]
  unfold ofNanos? nanos
  unfold nanosPerSecond at *
  simp only [bind, Option.bind_eq_some_iff, Date.ofNumber?_eq_some, Clock.of?_eq_some,
    Option.some.injEq]
  constructor
  · rintro ⟨date, hdate, clock, ⟨h, hm, hs, hn⟩, rfl⟩
    dsimp only at h hm hs hn ⊢
    rw [hdate, h, hm, hs, hn]
    omega
  · rintro ⟨rfl, hleap⟩
    refine ⟨t.date, ?_, t.clock, ⟨?_, ?_, ?_, ?_⟩, rfl⟩ <;> omega

end DateTime

end SqlCompose.Calendar
