import SplitBrainFabric.Library.Chunks

/-! One direction of a connection: messages written one behind the other, and read in whatever
chunks they arrive. What comes off the stream is a prefix of what was put on it. -/

open Words

namespace Cutter

variable {ε α β : Type} {cut : Cutter ε β} {image : α → Bytes} {read : α → β} {l : List α}

/-- What is cut off the front of a stream that a written message starts: the message, or
nothing ever again. -/
def Takes (cut : Cutter ε β) (image : α → Bytes) (read : α → β) (a : α) : Prop :=
  ∀ rest, (∃ shorter, cut (image a ++ rest) = .item (read a) rest shorter) ∨
    ∃ e, cut (image a ++ rest) = .fail e

theorem drain_mono (stable : cut.Stable) {front whole : Bytes} (front_of : front <+: whole) :
    (cut.drain front).1 <+: (cut.drain whole).1 := by
  obtain ⟨back, rfl⟩ := front_of
  rw [drain_append stable]
  exact List.prefix_append _ _

theorem drain_written (stable : cut.Stable) (takes : ∀ a ∈ l, cut.Takes image read a) :
    (cut.drain (l.flatMap image)).1 <+: l.map read := by
  induction l with
  | nil =>
    rw [List.flatMap_nil, drain_more stable.waits]
    exact List.nil_prefix
  | cons a l ih =>
    rw [List.flatMap_cons]
    rcases takes a List.mem_cons_self (l.flatMap image) with ⟨shorter, item⟩ | ⟨e, fail⟩
    · rw [drain_item item, List.map_cons, List.cons_prefix_cons]
      exact ⟨rfl, ih fun b member => takes b (List.mem_cons_of_mem a member)⟩
    · rw [drain_fail fail]
      exact List.nil_prefix

end Cutter

/-- The bytes of these messages, or the front of them once the writer has given up. -/
structure Carries {α : Type} (image : α → Bytes) (l : List α) (ended : Prop) (bytes : Bytes) :
    Prop where
  front : bytes <+: l.flatMap image
  whole : ¬ ended → bytes = l.flatMap image

namespace Carries

variable {ε α β : Type} {cut : Cutter ε β} {image : α → Bytes} {read : α → β}
  {l : List α} {ended later : Prop} {bytes : Bytes}

theorem empty : Carries image [] ended [] := ⟨List.prefix_rfl, fun _ => rfl⟩

theorem mono (carries : Carries image l ended bytes) (more : ended → later) :
    Carries image l later bytes :=
  ⟨carries.front, fun on => carries.whole fun given => on (more given)⟩

theorem write (carries : Carries image l ended bytes) (on : ¬ ended) (a : α) :
    Carries image (l ++ [a]) later (bytes ++ image a) := by
  have same : bytes ++ image a = (l ++ [a]).flatMap image := by
    rw [carries.whole on, List.flatMap_append, List.flatMap_singleton]
  exact ⟨same ▸ List.prefix_rfl, fun _ => same⟩

/-- The last that a writer does before it gives up. -/
theorem writePart (carries : Carries image l ended bytes) (on : ¬ ended) (a : α) (n : Nat)
    (given : later) : Carries image (l ++ [a]) later (bytes ++ (image a).take n) := by
  refine ⟨?_, fun still => absurd given still⟩
  rw [carries.whole on, List.flatMap_append, List.flatMap_singleton]
  exact (List.prefix_append_right_inj _).mpr (List.take_prefix n _)

/-- What a reader has taken is a prefix of what was written, in whatever chunks it came. -/
theorem taken (stable : cut.Stable) (takes : ∀ a ∈ l, cut.Takes image read a)
    {front flying : Bytes} (carries : Carries image l ended (front ++ flying)) :
    (cut.drain front).1 <+: l.map read :=
  (Cutter.drain_mono stable ((List.prefix_append front flying).trans carries.front)).trans
    (Cutter.drain_written stable takes)

end Carries

/-- Two lists of pairs whose first parts are read off one list. -/
theorem List.prefix_of_fst {α β : Type} {l m : List (α × β)} {all : List α}
    (first : l.map Prod.fst <+: all) (other : m.map Prod.fst <+: all)
    (second : l.map Prod.snd <+: m.map Prod.snd) : l <+: m := by
  have fewer : l.length ≤ m.length := by simpa using second.length_le
  have front : l.map Prod.fst <+: m.map Prod.fst :=
    List.prefix_of_prefix_length_le first other (by simpa using fewer)
  clear first other fewer
  induction l generalizing m with
  | nil => exact List.nil_prefix
  | cons p l ih =>
    cases m with
    | nil => exact absurd front.length_le (by simp)
    | cons q m =>
      rw [List.map_cons, List.map_cons, List.cons_prefix_cons] at front second
      rw [List.cons_prefix_cons]
      exact ⟨Prod.ext front.1 second.1, ih second.2 front.2⟩
