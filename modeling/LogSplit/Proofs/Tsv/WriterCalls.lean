import LogSplit.Proofs.Tsv.RoundTrip

/-!
# Calls of a writer on a destination with little room

A caller hands a writer a header, a row or a whole table at a time, and completes the file at the
end.  Each call fills the buffer, and one that has to pass the buffer on fails if the destination
does not take what is in it; what the last calls have left in the buffer is passed on when the file
is completed.  So a call can succeed although there is no room for what it wrote, and a failure is
seen late, or at the completion only.

It is seen, though.  What was taken and what is held, together, are all that was written so far, and
a session of calls comes to the same as passing on the blocks of all their records
(`session_eq_outcome`).  So a session in which nothing fails has delivered everything
(`session_eq`); if there is too little room the session fails, and by then the destination is filled
to the last byte with the beginning of the text.
-/

set_option autoImplicit false

namespace LogSplit

namespace Tsv

/-! ## Passing blocks on -/

theorem deliver_cons {block : Bytes} {rest : List Bytes} (hrest : rest ≠ []) (room : Nat) :
    deliver room (block :: rest) =
      if block.length ≤ room then
        ⟨block ++ (deliver (room - block.length) rest).taken,
          (deliver (room - block.length) rest).failure⟩
      else ⟨block.take room, some (.transfer .limitReached)⟩ := by
  rw [deliver]
  exact hrest

/-- How a delivery fails that there is no room for: if everything before the last block has been
taken, it is the completion that fails. -/
def overflow (room : Nat) (blocks : List Bytes) : TableError :=
  if blocks.dropLast.flatten.length ≤ room then .file .limitReached else .transfer .limitReached

/-- **A destination is filled from the front**, and what does not fit makes the delivery fail. -/
theorem deliver_eq (room : Nat) (blocks : List Bytes) :
    deliver room blocks =
      ⟨blocks.flatten.take room,
        if blocks.flatten.length ≤ room then none else some (overflow room blocks)⟩ := by
  induction blocks generalizing room with
  | nil => simp [deliver]
  | cons block rest ih =>
    by_cases hrest : rest = []
    · subst hrest
      rw [deliver, List.flatten_singleton, overflow]
      by_cases hroom : block.length ≤ room
      · simp [hroom, List.take_of_length_le hroom]
      · simp [hroom]
    · rw [deliver_cons hrest, ih, overflow, overflow, List.dropLast_cons_of_ne_nil hrest,
        List.flatten_cons, List.flatten_cons, List.length_append, List.length_append,
        List.take_append]
      by_cases hroom : block.length ≤ room
      · simp only [if_pos hroom, List.take_of_length_le hroom, Nat.le_sub_iff_add_le' hroom]
      · have hall : ¬ block.length + rest.flatten.length ≤ room := by omega
        have hfront : ¬ block.length + rest.dropLast.flatten.length ≤ room := by omega
        have hnone : room - block.length = 0 := by omega
        rw [if_neg hroom, if_neg hall, if_neg hfront, hnone, List.take_zero, List.append_nil]

theorem blocksFrom_ne_nil (room : Nat) (held : Bytes) (pieces : List Bytes) :
    blocksFrom room held pieces ≠ [] := by
  induction pieces generalizing room held with
  | nil => exact List.cons_ne_nil _ _
  | cons piece rest ih =>
    rw [blocksFrom]
    split
    · exact ih _ _
    · exact List.cons_ne_nil _ _

/-! ## Calls -/

/-- What a writer is asked to write. -/
inductive Call where
  /-- A header. -/
  | header (header : Header)
  /-- A row. -/
  | row (row : Row)
  /-- A header and rows below it. -/
  | table (header : Header) (rows : List Row)

namespace Call

/-- The records that are written. -/
def records : Call → List (List String)
  | header h => [h.names]
  | row r => [r.cells]
  | table h rows => tableRecords h rows

/-- The written form. -/
def encode (c : Call) : Bytes := encodeRecords c.records

end Call

theorem encodeRecords_append (texts texts' : List (List String)) :
    encodeRecords (texts ++ texts') = encodeRecords texts ++ encodeRecords texts' := by
  rw [encodeRecords, pieces, List.flatMap_append, List.flatten_append]
  rfl

/-- Calls write the records of one after the other. -/
theorem flatMap_encode (calls : List Call) :
    calls.flatMap Call.encode = encodeRecords (calls.flatMap Call.records) := by
  induction calls with
  | nil => rfl
  | cons c calls ih =>
    rw [List.flatMap_cons, List.flatMap_cons, ih, encodeRecords_append, Call.encode]

/-! ## A writer -/

/-- A writer that has not failed. -/
structure Writer where
  /-- What is in the buffer, newest first. -/
  held : Bytes
  /-- What the destination has taken. -/
  taken : Bytes

namespace Writer

/-- Before the first call. -/
def new : Writer := ⟨[], []⟩

/-- Passes the buffer on to a destination that takes at most `limit` bytes in all.  If there are
more, it takes what it can and the writer fails. -/
def passOn (limit : Nat) (failure : TableError) (w : Writer) : Except Delivery Bytes :=
  if w.taken.length + w.held.length ≤ limit then .ok (w.taken ++ w.held.reverse)
  else .error ⟨(w.taken ++ w.held.reverse).take limit, some failure⟩

/-- Puts a piece into the buffer, which is passed on before if it has no room for the piece. -/
def put (limit : Nat) (w : Writer) (piece : Bytes) : Except Delivery Writer :=
  if piece.length ≤ bufferSize - w.held.length then .ok ⟨piece.reverse ++ w.held, w.taken⟩
  else (w.passOn limit (.transfer .limitReached)).map (⟨piece.reverse, ·⟩)

/-- Answers a call. -/
def call (limit : Nat) (w : Writer) (c : Call) : Except Delivery Writer :=
  (pieces c.records).foldlM (put limit) w

/-- Completes the file. -/
def complete (limit : Nat) (w : Writer) : Except Delivery Bytes :=
  w.passOn limit (.file .limitReached)

end Writer

/-- Calls of a new writer, up to the first that fails, and the completion of the file if none of
them does: what the destination has taken. -/
def session (limit : Nat) (calls : List Call) : Except Delivery Bytes :=
  calls.foldlM (Writer.call limit) .new >>= Writer.complete limit

/-- What was taken if nothing failed. -/
def Delivery.outcome (d : Delivery) : Except Delivery Bytes :=
  match d.failure with
  | none => .ok d.taken
  | some _ => .error d

/-- A delivery behind what was taken before. -/
def Delivery.behind (taken : Bytes) (d : Delivery) : Delivery := ⟨taken ++ d.taken, d.failure⟩

namespace Writer

variable {limit : Nat} {w : Writer}

/-- Passing the buffer on is the delivery of one block. -/
theorem complete_eq (h : w.taken.length ≤ limit) :
    w.complete limit
      = ((deliver (limit - w.taken.length) [w.held.reverse]).behind w.taken).outcome := by
  rw [complete, passOn, deliver, List.length_reverse]
  by_cases hroom : w.taken.length + w.held.length ≤ limit
  · rw [if_pos hroom, if_pos ((Nat.le_sub_iff_add_le' h).2 hroom)]
    rfl
  · rw [if_neg hroom, if_neg (mt (Nat.le_sub_iff_add_le' h).1 hroom), List.take_append,
      List.take_of_length_le h]
    rfl

/-- **Pieces that are put into the buffer one by one are delivered in blocks.** -/
theorem foldlM_put_complete (pieces : List Bytes) : ∀ {w : Writer}, w.taken.length ≤ limit →
    pieces.foldlM (put limit) w >>= complete limit
      = ((deliver (limit - w.taken.length)
          (blocksFrom (bufferSize - w.held.length) w.held pieces)).behind w.taken).outcome := by
  induction pieces with
  | nil => exact fun h => complete_eq h
  | cons piece rest ih =>
    intro w h
    rw [List.foldlM_cons, bind_assoc, put, blocksFrom]
    by_cases hfits : piece.length ≤ bufferSize - w.held.length
    · rw [if_pos hfits, if_pos hfits]
      have hsize : bufferSize - (piece.reverse ++ w.held).length
          = bufferSize - w.held.length - piece.length := by
        rw [List.length_append, List.length_reverse]
        omega
      exact hsize ▸ ih (w := ⟨piece.reverse ++ w.held, w.taken⟩) h
    · rw [if_neg hfits, if_neg hfits, deliver_cons (blocksFrom_ne_nil _ _ _), passOn,
        List.length_reverse]
      by_cases hroom : w.taken.length + w.held.length ≤ limit
      · rw [if_pos hroom, if_pos ((Nat.le_sub_iff_add_le' h).2 hroom)]
        have htaken : (w.taken ++ w.held.reverse).length = w.taken.length + w.held.length := by
          rw [List.length_append, List.length_reverse]
        have hnext := ih (w := ⟨piece.reverse, w.taken ++ w.held.reverse⟩) (htaken ▸ hroom)
        rw [htaken, List.length_reverse, ← Nat.sub_sub] at hnext
        refine hnext.trans ?_
        rw [Delivery.behind, Delivery.behind, List.append_assoc]
      · rw [if_neg hroom, if_neg (mt (Nat.le_sub_iff_add_le' h).1 hroom), List.take_append,
          List.take_of_length_le h]
        rfl

/-- Calls put the pieces of all their records into the buffer. -/
theorem foldlM_call (calls : List Call) : ∀ w : Writer,
    calls.foldlM (call limit) w = (pieces (calls.flatMap Call.records)).foldlM (put limit) w := by
  induction calls with
  | nil => exact fun w => rfl
  | cons c calls ih =>
    intro w
    rw [List.foldlM_cons, List.flatMap_cons, pieces, List.flatMap_append, List.foldlM_append]
    exact congrArg (w.call limit c >>= ·) (funext ih)

end Writer

/-- A session comes to the same as writing all its records at once. -/
theorem session_eq_outcome (limit : Nat) (calls : List Call) :
    session limit calls = (write limit (calls.flatMap Call.records)).outcome := by
  rw [session, Writer.foldlM_call, Writer.foldlM_put_complete _ (Nat.zero_le limit)]
  rfl

/-- **Nothing is cut off in silence.**  A session succeeds just if the destination has room for the
written form of all its calls, which is then what the destination has taken.  Otherwise the first
failure is reported and the destination has taken as much of the written form as it has room for. -/
theorem session_eq (limit : Nat) (calls : List Call) :
    session limit calls = (write limit (calls.flatMap Call.records)).outcome ∧
      session limit calls =
        if (calls.flatMap Call.encode).length ≤ limit then .ok (calls.flatMap Call.encode)
        else .error ⟨(calls.flatMap Call.encode).take limit,
          some (overflow limit (blocks (pieces (calls.flatMap Call.records))))⟩ := by
  refine ⟨session_eq_outcome limit calls, ?_⟩
  rw [session_eq_outcome, write, deliver_eq, flatten_blocks, flatMap_encode, ← encodeRecords]
  split
  · rename_i hroom
    rw [List.take_of_length_le hroom]
    rfl
  · rfl

end Tsv

end LogSplit
