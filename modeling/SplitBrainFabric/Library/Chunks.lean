import SplitBrainFabric.Library.Words

/-! Items cut off the front of a byte stream that arrives in chunks. A cutter is stable
when what it makes of a prefix it makes of every extension; then the items do not depend
on where the stream was cut. -/

open Words

/-- Wait for more bytes, give the stream up, or take an item and go on with the rest. -/
inductive Cut (ε α : Type) (buffer : Bytes) where
  | more
  | fail (e : ε)
  | item (a : α) (rest : Bytes) (shorter : rest.length < buffer.length)

abbrev Cutter (ε α : Type) := (buffer : Bytes) → Cut ε α buffer

namespace Cutter

variable {ε α : Type} {cut : Cutter ε α} {buffer chunk left : Bytes} {items : List α} {e : ε}

/-- All items of the buffer, and what is left of it. -/
def drain (cut : Cutter ε α) (buffer : Bytes) : List α × Except ε Bytes :=
  match cut buffer with
  | .more => ([], .ok buffer)
  | .fail e => ([], .error e)
  | .item a rest _ => (a :: (drain cut rest).1, (drain cut rest).2)
termination_by buffer.length

/-- One more chunk, unless the stream was given up. -/
def feed (cut : Cutter ε α) (chunk : Bytes) : Except ε Bytes → List α × Except ε Bytes
  | .error e => ([], .error e)
  | .ok buffer => drain cut (buffer ++ chunk)

def feedAll (cut : Cutter ε α) : List Bytes → Except ε Bytes → List α × Except ε Bytes
  | [], left => ([], left)
  | chunk :: rest, left =>
    ((cut.feed chunk left).1 ++ (feedAll cut rest (cut.feed chunk left).2).1,
      (feedAll cut rest (cut.feed chunk left).2).2)

structure Stable (cut : Cutter ε α) : Prop where
  waits : cut [] = .more
  fail : ∀ {buffer e}, cut buffer = .fail e → ∀ chunk, cut (buffer ++ chunk) = .fail e
  item : ∀ {buffer a rest shorter}, cut buffer = .item a rest shorter →
    ∀ chunk, ∃ shorter', cut (buffer ++ chunk) = .item a (rest ++ chunk) shorter'

theorem drain_more (more : cut buffer = .more) : cut.drain buffer = ([], .ok buffer) := by
  rw [drain, more]

theorem drain_fail (fail : cut buffer = .fail e) : cut.drain buffer = ([], .error e) := by
  rw [drain, fail]

theorem drain_item {a : α} {rest : Bytes} {shorter : rest.length < buffer.length}
    (item : cut buffer = .item a rest shorter) :
    cut.drain buffer = (a :: (cut.drain rest).1, (cut.drain rest).2) := by
  rw [drain, item]

/-- What is left of a buffer is waiting for more. -/
theorem drain_left (drained : cut.drain buffer = (items, .ok left)) : cut left = .more := by
  induction buffer using drain.induct cut generalizing items with
  | case1 buffer more =>
    rw [drain_more more] at drained
    cases drained
    exact more
  | case2 buffer e fail =>
    rw [drain_fail fail] at drained
    cases drained
  | case3 buffer a rest shorter item ih =>
    rw [drain_item item] at drained
    obtain ⟨-, last⟩ := Prod.mk.inj drained
    exact ih (Prod.ext rfl last)

theorem drain_append (stable : cut.Stable) (buffer chunk : Bytes) :
    cut.drain (buffer ++ chunk) =
      ((cut.drain buffer).1 ++ (cut.feed chunk (cut.drain buffer).2).1,
        (cut.feed chunk (cut.drain buffer).2).2) := by
  induction buffer using drain.induct cut with
  | case1 buffer more =>
    rw [drain_more more]
    rfl
  | case2 buffer e fail =>
    rw [drain_fail fail, drain_fail (stable.fail fail chunk)]
    rfl
  | case3 buffer a rest shorter item ih =>
    obtain ⟨shorter', later⟩ := stable.item item chunk
    rw [drain_item item, drain_item later, ih]
    rfl

/-- However the stream was cut, the items are those of the whole. -/
theorem feedAll_drain (stable : cut.Stable) (chunks : List Bytes) (buffer : Bytes) :
    cut.feedAll chunks (cut.drain buffer).2 =
      cut.feed chunks.flatten (cut.drain buffer).2 := by
  induction chunks generalizing buffer with
  | nil =>
    cases left : (cut.drain buffer).2 with
    | error e => rfl
    | ok rest =>
      have waiting := drain_left (Prod.ext rfl left)
      simp only [feedAll, List.flatten_nil, feed, List.append_nil, drain_more waiting]
  | cons chunk rest ih =>
    cases left : (cut.drain buffer).2 with
    | error e =>
      have stuck : cut.feedAll rest (.error e) = ([], .error e) := by
        have again := ih buffer
        rw [left] at again
        exact again
      simp only [feedAll, feed, stuck, List.append_nil]
    | ok kept =>
      have next := ih (kept ++ chunk)
      have whole := drain_append stable (kept ++ chunk) rest.flatten
      simp only [feedAll, feed, List.flatten_cons, next]
      rw [← List.append_assoc, whole]
      rfl

theorem feedAll_fresh (stable : cut.Stable) (chunks : List Bytes) :
    cut.feedAll chunks (.ok []) = cut.drain chunks.flatten := by
  have empty : (cut.drain []).2 = .ok [] := by rw [drain_more stable.waits]
  have all := feedAll_drain stable chunks []
  rw [empty] at all
  exact all

end Cutter
