/-
# What decoding reports

A walk reports the tags that it cannot read, and nothing else.  So no decoding ever warns, whatever
the memory is and however it ends (`decode_events`).
-/
import TokenImage.Decoder

namespace TokenImage

namespace Memory

variable {m : Memory}

theorem readSlots_events {read : Nat → Traced Halt Token}
    (hread : ∀ p, ∀ event ∈ (read p).events, event.level = .debug) {n slot : Nat} :
    ∀ event ∈ (m.readSlots read n slot).events, event.level = .debug := by
  induction n generalizing slot with
  | zero => simp [readSlots]
  | succ n ih =>
    intro event h
    rw [readSlots] at h
    rcases Traced.mem_events_bind h with h | ⟨p, -, h⟩
    · simp at h
    rcases Traced.mem_events_bind h with h | ⟨t, -, h⟩
    · exact hread p event h
    rcases Traced.mem_events_bind h with h | ⟨ts, -, h⟩
    · exact ih event h
    · simp at h

theorem readValue_events {read : Nat → Traced Halt Token}
    (hread : ∀ p, ∀ event ∈ (read p).events, event.level = .debug) {a : Nat} {tag : Tag}
    {index : UInt64} : ∀ event ∈ (m.readValue read a tag index).events, event.level = .debug := by
  intro event h
  rw [readValue] at h
  cases hk : tag.kind with
  | none =>
    rw [hk] at h
    simp at h
  | bytes | signed | unsigned =>
    rw [hk] at h
    rcases Traced.mem_events_bind h with h | ⟨_, -, h⟩
    · simp at h
    · simp at h
  | sequence =>
    rw [hk] at h
    rcases Traced.mem_events_bind h with h | ⟨slots, -, h⟩
    · simp at h
    rcases Traced.mem_events_bind h with h | ⟨items, -, h⟩
    · exact readSlots_events hread event h
    · simp at h
  | unsupported =>
    rw [hk] at h
    rcases Traced.mem_events_bind h with h | ⟨_, -, h⟩
    · rw [Traced.events_emit, List.mem_singleton] at h
      rw [h, Event.level]
    · simp at h

/-- **A walk reports unsupported tags only.** -/
theorem walk_events {room a : Nat} : ∀ event ∈ (m.walk room a).events, event.level = .debug := by
  induction room generalizing a with
  | zero => simp [walk]
  | succ room ih =>
    intro event h
    rw [walk] at h
    by_cases ha : a = 0
    · rw [if_pos ha] at h
      simp at h
    rw [if_neg ha] at h
    rcases Traced.mem_events_bind h with h | ⟨tag, -, h⟩
    · simp at h
    rcases Traced.mem_events_bind h with h | ⟨index, -, h⟩
    · simp at h
    rcases Traced.mem_events_bind h with h | ⟨bitOffset, -, h⟩
    · simp at h
    rcases Traced.mem_events_bind h with h | ⟨value, -, h⟩
    · exact readValue_events (fun p => ih) event h
    · simp at h

end Memory

/-- Decoding reports unsupported tags only. -/
theorem Decoder.decode_events {d : Decoder} {m : Memory} {root : Nat} :
    ∀ event ∈ (d.decode m root).events, event.level = .debug :=
  Memory.walk_events

end TokenImage
