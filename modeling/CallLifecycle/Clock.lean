import CallLifecycle.Duration

/-!
# Instants and alarms

An instant is told by how long the clock has run. Neither the clock nor its alarms reach on for
ever:

* `Instant.after?` — the instant behind a duration, if the clock can tell it;
* `Instant.alarm` — when an alarm goes off that is set to an instant;
* `Instant.alarmAfter` — when an alarm goes off that is set for a duration, however long.
-/

namespace CallLifecycle

/-- A point in time: how long the clock has run. -/
abbrev Instant := Nat

namespace Instant

/-- The latest instant that the clock can tell. Its seconds are signed words of 64 bits, and one of
them had passed when it started to run. -/
def latest : Instant := (Nat.pow 2 63 - 1) * Duration.nanosPerSecond - 1

/-- The instant behind a duration, if the clock can tell it. -/
def after? (now : Instant) (d : Duration) : Option Instant :=
  if now + d.nanos ≤ latest then some (now + d.nanos) else none

/-- The latest alarm. Alarms count milliseconds in words of 64 bits, of which the last two tell
something else. -/
def latestAlarm : Instant := (Duration.ofMillis (Nat.pow 2 64 - 3)).nanos

/-- When an alarm goes off that is set to an instant. -/
def alarm (i : Instant) : Instant := if i ≤ latestAlarm then i else latestAlarm

theorem alarm_le (i : Instant) : i.alarm ≤ i := by
  unfold alarm
  split
  · exact Nat.le_refl i
  · exact Nat.le_of_not_le ‹_›

/-- An alarm that is set to an instant that alarms reach goes off at it. -/
theorem alarm_eq {i : Instant} (reached : i ≤ latestAlarm) : i.alarm = i := if_pos reached

/-- Thirty years of 365 days, which stand for a duration that the clock cannot tell. -/
def farAhead : Duration := Duration.ofParts (30 * 365 * 24 * 60 * 60) 0

/-- When an alarm goes off that is set for a duration. -/
def alarmAfter (now : Instant) (d : Duration) : Instant :=
  ((now.after? d).getD (now + farAhead.nanos)).alarm

/-- An alarm for a duration that the clock can tell goes off behind it at the latest. -/
theorem alarmAfter_le {now : Instant} {d : Duration} (tellable : now + d.nanos ≤ latest) :
    now.alarmAfter d ≤ now + d.nanos := by
  rw [alarmAfter, after?, if_pos tellable]
  exact alarm_le _

/-- It does not go off before that, if alarms reach so far. -/
theorem le_alarmAfter {now : Instant} {d : Duration} (tellable : now + d.nanos ≤ latest)
    (reached : now + d.nanos ≤ latestAlarm) : now + d.nanos ≤ now.alarmAfter d := by
  rw [alarmAfter, after?, if_pos tellable, Option.getD_some]
  exact Nat.le_of_eq (alarm_eq reached).symm

end Instant

end CallLifecycle
