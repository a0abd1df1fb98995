import AgentBridge.Base.Text

/-! The frames of the TCP transport. A frame is a line of the byte stream, and which lines are read does
not depend on how the stream arrives in the reader's buffer. -/

namespace AgentBridge.Tcp

def newline : UInt8 := 10

def carriageReturn : UInt8 := 13

/-- What `fill_buf` makes available at once before the end of the stream. -/
abbrev Chunk := { bytes : List UInt8 // bytes ≠ [] }

/-- The bytes that are still to be read. -/
def stream (chunks : List Chunk) : List UInt8 := chunks.flatMap Subtype.val

/-- The chunks after `n` bytes of the first one are consumed. -/
def consume (available : Chunk) (n : Nat) (chunks : List Chunk) : List Chunk :=
  if h : available.val.drop n = [] then chunks else ⟨available.val.drop n, h⟩ :: chunks

/-- What one turn of the loop makes of the available bytes. -/
structure Scan where
  upto : Nat
  newline : Bool
  overflow : Bool
  buf : List UInt8

/-- The size is checked before anything is copied. -/
def scan (max : Nat) (buf : List UInt8) (available : List UInt8) : Scan :=
  match available.findIdx? (· = newline) with
  | some pos =>
    if max < buf.length + pos then ⟨pos + 1, true, true, buf⟩
    else ⟨pos + 1, true, false, buf ++ available.take pos⟩
  | none =>
    if max < buf.length + available.length then ⟨available.length, false, true, buf⟩
    else ⟨available.length, false, false, buf ++ available⟩

def stripReturn (buf : List UInt8) : List UInt8 :=
  if buf.getLast? = some carriageReturn then buf.dropLast else buf

def exceedsMaxSize : Text := "tcp frame exceeds max size".toList

section Read
variable {α : Type} (lossy : List UInt8 → α) (max : Nat)

abbrev ReadResult (α : Type) := Except Text (Option α)

/-- `read_capped_line` from the bytes buffered so far: a frame, or `none` at the end of the stream. A
turn that neither fails nor ends a line consumes the whole chunk. -/
def readCappedLine (buf : List UInt8) : List Chunk → ReadResult α × List Chunk
  | [] => (.ok (if buf = [] then none else some (lossy buf)), [])
  | available :: chunks =>
    let s := scan max buf available.val
    if s.overflow then (.error exceedsMaxSize, consume available s.upto chunks)
    else if s.newline then (.ok (some (lossy (stripReturn s.buf))), consume available s.upto chunks)
    else readCappedLine s.buf chunks

/-- The buffer at the start of a call and after each of its turns. -/
def buffers (buf : List UInt8) : List Chunk → List (List UInt8)
  | [] => [buf]
  | available :: chunks =>
    let s := scan max buf available.val
    buf :: if s.overflow || s.newline then [s.buf] else buffers s.buf chunks

/-- The results of repeated calls, up to the first error or the end of the stream. -/
inductive Reads : List Chunk → List (ReadResult α) → Prop
  | error {chunks rest : List Chunk} {e : Text} (h : readCappedLine lossy max [] chunks = (.error e, rest)) :
      Reads chunks [.error e]
  | eof {chunks rest : List Chunk} (h : readCappedLine lossy max [] chunks = (.ok none, rest)) :
      Reads chunks [.ok none]
  | frame {chunks rest : List Chunk} {frame : α} {results : List (ReadResult α)}
      (h : readCappedLine lossy max [] chunks = (.ok (some frame), rest)) (hrest : Reads rest results) :
      Reads chunks (.ok (some frame) :: results)

/-- The results for the lines of a stream, of which the last is not terminated. -/
def expected : List (List UInt8) → List (ReadResult α)
  | [] => [.ok none]
  | [tail] =>
    if tail = [] then [.ok none]
    else if max < tail.length then [.error exceedsMaxSize]
    else [.ok (some (lossy tail)), .ok none]
  | line :: lines =>
    if max < line.length then [.error exceedsMaxSize]
    else .ok (some (lossy (stripReturn line))) :: expected lines

end Read

section Scan
variable {max : Nat} {buf available : List UInt8}

theorem scan_line {line rest : List UInt8} (hline : newline ∉ line) :
    scan max buf (line ++ newline :: rest) =
      if max < buf.length + line.length then ⟨line.length + 1, true, true, buf⟩
      else ⟨line.length + 1, true, false, buf ++ line⟩ := by
  have hnone : line.findIdx? (· = newline) = none := by
    rw [List.findIdx?_eq_none_iff]
    intro b hb
    simpa using fun h : b = newline => hline (h ▸ hb)
  have hpos : (line ++ newline :: rest).findIdx? (· = newline) = some line.length := by
    rw [List.findIdx?_append, hnone]
    simp [List.findIdx?_cons]
  unfold scan
  rw [hpos]
  dsimp only
  rw [List.take_left]

theorem scan_open (h : newline ∉ available) :
    scan max buf available =
      if max < buf.length + available.length then ⟨available.length, false, true, buf⟩
      else ⟨available.length, false, false, buf ++ available⟩ := by
  have hnone : available.findIdx? (· = newline) = none := by
    rw [List.findIdx?_eq_none_iff]
    intro b hb
    simpa using fun heq : b = newline => h (heq ▸ hb)
  unfold scan
  rw [hnone]

theorem exists_line (h : newline ∈ available) : ∃ line rest, available = line ++ newline :: rest ∧ newline ∉ line := by
  obtain ⟨line, rest, heq, hline⟩ := List.eq_append_cons_of_mem h
  exact ⟨line, rest, heq, hline⟩

theorem line_unique {line line' rest rest' : List UInt8} (hline : newline ∉ line) (hline' : newline ∉ line')
    (h : line ++ newline :: rest = line' ++ newline :: rest') : line = line' ∧ rest = rest' := by
  have hsplit := congrArg (List.splitOn newline) h
  rw [List.splitOn_append_cons_self, List.splitOn_append_cons_self, List.splitOn_eq_singleton hline,
    List.splitOn_eq_singleton hline'] at hsplit
  obtain rfl := (List.cons.inj hsplit).1
  exact ⟨rfl, List.tail_eq_of_cons_eq (List.append_cancel_left h)⟩

theorem isPrefix_of_open {part line rest after : List UInt8} (hpart : newline ∉ part)
    (h : part ++ after = line ++ newline :: rest) : part <+: line := by
  have hpart' : part <+: line ++ newline :: rest := h ▸ List.prefix_append _ _
  rcases List.prefix_or_prefix_of_prefix hpart' (List.prefix_append line _) with hp | ⟨more, hmore⟩
  · exact hp
  · cases more with
    | nil => rw [← hmore, List.append_nil]
    | cons b more =>
      -- what follows the line in the part is its newline
      rw [← hmore, List.append_assoc, List.cons_append] at h
      have hb := (List.cons.inj (List.append_cancel_left h)).1
      exact absurd (by simp [← hmore, hb]) hpart

theorem length_scan_le (hbuf : buf.length ≤ max) (available : List UInt8) :
    (scan max buf available).buf.length ≤ max := by
  unfold scan
  cases available.findIdx? (· = newline) with
  | some pos =>
    dsimp only
    split_ifs with hover
    · exact hbuf
    · rw [List.length_append, List.length_take]
      omega
  | none =>
    dsimp only
    split_ifs with hover
    · exact hbuf
    · rw [List.length_append]
      exact Nat.le_of_not_lt hover

theorem length_buffers_le (hbuf : buf.length ≤ max) (chunks : List Chunk) :
    ∀ b ∈ buffers max buf chunks, b.length ≤ max := by
  induction chunks generalizing buf with
  | nil =>
    intro b hb
    rw [List.mem_singleton.mp hb]
    exact hbuf
  | cons available chunks ih =>
    have hscan := length_scan_le hbuf available.val
    rw [buffers, List.forall_mem_cons]
    refine ⟨hbuf, ?_⟩
    split_ifs with hdone
    · rwa [List.forall_mem_singleton]
    · exact ih hscan

end Scan

section Stream
variable {α : Type} {lossy : List UInt8 → α} {max : Nat} {buf : List UInt8}

theorem stream_consume (available : Chunk) (n : Nat) (chunks : List Chunk) :
    stream (consume available n chunks) = available.val.drop n ++ stream chunks := by
  unfold consume
  by_cases h : available.val.drop n = []
  · rw [dif_pos h, h]
    rfl
  · rw [dif_neg h]
    rfl

theorem readCappedLine_line {chunks : List Chunk} {line rest : List UInt8}
    (hstream : buf ++ stream chunks = line ++ newline :: rest) (hline : newline ∉ line) (hbuf : newline ∉ buf)
    (hfits : buf.length ≤ max) :
    (max < line.length ∧ ∃ left, readCappedLine lossy max buf chunks = (.error exceedsMaxSize, left)) ∨
    (line.length ≤ max ∧ ∃ left, stream left = rest ∧
      readCappedLine lossy max buf chunks = (.ok (some (lossy (stripReturn line))), left)) := by
  induction chunks generalizing buf with
  | nil =>
    have hmem : newline ∈ buf := by
      rw [stream, List.flatMap_nil, List.append_nil] at hstream
      simp [hstream]
    exact absurd hmem hbuf
  | cons available chunks ih =>
    rw [readCappedLine]
    have hall : buf ++ (available.val ++ stream chunks) = line ++ newline :: rest := hstream
    by_cases hin : newline ∈ available.val
    · -- the line ends in this chunk
      obtain ⟨part, after, hav, hpart⟩ := exists_line hin
      have hsame : buf ++ part = line ∧ after ++ stream chunks = rest := by
        have hopen : newline ∉ buf ++ part := by simp [hbuf, hpart]
        rw [hav, List.append_assoc, ← List.append_assoc buf, List.cons_append] at hall
        exact line_unique hopen hline hall
      have hdrop : available.val.drop (part.length + 1) = after := by
        rw [hav]
        simp
      have hleft : stream (consume available (part.length + 1) chunks) = rest := by
        rw [stream_consume, hdrop, hsame.2]
      have hlength : buf.length + part.length = line.length := by rw [← List.length_append, hsame.1]
      have hscan := @scan_line max buf part after hpart
      rw [← hav, hlength] at hscan
      rw [hscan]
      by_cases hover : max < line.length
      · rw [if_pos hover]
        exact .inl ⟨hover, _, rfl⟩
      · rw [if_neg hover, hsame.1]
        exact .inr ⟨Nat.le_of_not_lt hover, _, hleft, rfl⟩
    · rw [scan_open hin]
      by_cases hover : max < buf.length + available.val.length
      · rw [if_pos hover]
        -- the buffered bytes are a beginning of the line
        have hbegins : buf ++ available.val <+: line :=
          isPrefix_of_open (by simp [hbuf, hin]) ((List.append_assoc _ _ _).trans hall)
        have hle := hbegins.length_le
        rw [List.length_append] at hle
        exact .inl ⟨hover.trans_le hle, _, rfl⟩
      · rw [if_neg hover]
        refine ih ?_ (by simp [hbuf, hin]) ?_
        · rw [List.append_assoc]
          exact hall
        · rw [List.length_append]
          exact Nat.le_of_not_lt hover

theorem readCappedLine_tail {chunks : List Chunk} (htail : newline ∉ buf ++ stream chunks) (hfits : buf.length ≤ max) :
    (max < (buf ++ stream chunks).length ∧
      ∃ left, readCappedLine lossy max buf chunks = (.error exceedsMaxSize, left)) ∨
    ((buf ++ stream chunks).length ≤ max ∧ readCappedLine lossy max buf chunks =
      (.ok (if buf ++ stream chunks = [] then none else some (lossy (buf ++ stream chunks))), [])) := by
  -- without a newline every chunk is buffered, up to the one that exceeds the limit
  induction chunks generalizing buf with
  | nil =>
    have hnil : buf ++ stream [] = buf := List.append_nil buf
    rw [hnil]
    exact .inr ⟨hfits, rfl⟩
  | cons available chunks ih =>
    have hall : buf ++ stream (available :: chunks) = (buf ++ available.val) ++ stream chunks :=
      (List.append_assoc buf available.val (stream chunks)).symm
    rw [hall] at htail ⊢
    have hin : newline ∉ available.val := fun h => htail (by simp [h])
    rw [readCappedLine]
    rw [scan_open hin]
    by_cases hover : max < buf.length + available.val.length
    · rw [if_pos hover]
      refine .inl ⟨?_, _, rfl⟩
      rw [List.length_append, List.length_append]
      exact Nat.lt_add_right _ hover
    · rw [if_neg hover]
      refine ih htail ?_
      rw [List.length_append]
      exact Nat.le_of_not_lt hover

theorem expected_line {line rest : List UInt8} (hline : newline ∉ line) :
    expected lossy max ((line ++ newline :: rest).splitOn newline) =
      if max < line.length then [.error exceedsMaxSize]
      else .ok (some (lossy (stripReturn line))) :: expected lossy max (rest.splitOn newline) := by
  rw [List.splitOn_append_cons_self, List.splitOn_eq_singleton hline, List.singleton_append]
  cases hrest : rest.splitOn newline with
  | nil => exact absurd hrest (List.splitOn_ne_nil _ _)
  | cons next lines => rfl

theorem expected_tail {tail : List UInt8} (htail : newline ∉ tail) :
    expected lossy max (tail.splitOn newline) =
      if tail = [] then [.ok none]
      else if max < tail.length then [.error exceedsMaxSize]
      else [.ok (some (lossy tail)), .ok none] := by
  rw [List.splitOn_eq_singleton htail]
  rfl

theorem reads_nil : Reads lossy max [] [.ok none] := .eof rfl

theorem reads_expected (chunks : List Chunk) :
    Reads lossy max chunks (expected lossy max ((stream chunks).splitOn newline)) := by
  induction hn : (stream chunks).length using Nat.strong_induction_on generalizing chunks with
  | _ n ih =>
    by_cases hin : newline ∈ stream chunks
    · obtain ⟨line, rest, hstream, hline⟩ := exists_line hin
      have hcall := @readCappedLine_line α lossy max [] chunks line rest hstream hline List.not_mem_nil (Nat.zero_le _)
      rw [hstream, expected_line hline]
      rcases hcall with ⟨hover, left, hread⟩ | ⟨hfits, left, hleft, hread⟩
      · rw [if_pos hover]
        exact .error hread
      · rw [if_neg (Nat.not_lt.mpr hfits), ← hleft]
        -- the line took at least its newline from the stream
        have hless : (stream left).length < n := by
          rw [← hn, hstream, hleft, List.length_append, List.length_cons]
          omega
        exact .frame hread (ih _ hless left rfl)
    · have hcall := @readCappedLine_tail _ lossy max [] _ hin (Nat.zero_le _)
      rw [List.nil_append] at hcall
      rw [expected_tail hin]
      rcases hcall with ⟨hover, left, hread⟩ | ⟨hfits, hread⟩
      · have hne : stream chunks ≠ [] := List.ne_nil_of_length_pos (Nat.zero_lt_of_lt hover)
        rw [if_neg hne, if_pos hover]
        exact .error hread
      · by_cases hnil : stream chunks = []
        · rw [if_pos hnil]
          rw [if_pos hnil] at hread
          exact .eof hread
        · rw [if_neg hnil, if_neg (Nat.not_lt.mpr hfits)]
          rw [if_neg hnil] at hread
          exact .frame hread reads_nil

theorem Reads.unique {chunks : List Chunk} {results results' : List (ReadResult α)}
    (h : Reads lossy max chunks results) (h' : Reads lossy max chunks results') : results = results' := by
  -- the reader has one result for each state of its buffer
  induction h generalizing results' with
  | error hread => cases h' with
    | error hread' =>
      rw [hread] at hread'
      cases hread'
      rfl
    | eof hread' => rw [hread] at hread'; cases hread'
    | frame hread' _ => rw [hread] at hread'; cases hread'
  | eof hread => cases h' with
    | error hread' => rw [hread] at hread'; cases hread'
    | eof hread' => rfl
    | frame hread' _ => rw [hread] at hread'; cases hread'
  | frame hread _ ih => cases h' with
    | error hread' => rw [hread] at hread'; cases hread'
    | eof hread' => rw [hread] at hread'; cases hread'
    | frame hread' hrest =>
      rw [hread] at hread'
      cases hread'
      rw [ih hrest]

end Stream

/-- However a stream is cut into chunks, the calls on it yield the results for its lines, with never more
than the maximum in the buffer. -/
theorem framing_packetisation {α : Type} (lossy : List UInt8 → α) (max : Nat) (chunks : List Chunk) :
    (∀ results, Reads lossy max chunks results ↔
      results = expected lossy max ((stream chunks).splitOn newline)) ∧
    (∀ chunks', stream chunks' = stream chunks →
      ∀ results, Reads lossy max chunks' results ↔ Reads lossy max chunks results) ∧
    ∀ b ∈ buffers max [] chunks, b.length ≤ max := by
  have key (chunks : List Chunk) (results : List (ReadResult α)) : Reads lossy max chunks results ↔
      results = expected lossy max ((stream chunks).splitOn newline) := by
    constructor
    · intro h
      exact h.unique (reads_expected chunks)
    · rintro rfl
      exact reads_expected chunks
  refine ⟨key chunks, ?_, length_buffers_le (Nat.zero_le _) chunks⟩
  intro chunks' hsame results
  rw [key, key, hsame]

/-- A carriage return split from its newline, and a tail. -/
example : expected id 4 (List.splitOn newline [97, 13, 10, 98]) = [.ok (some [97]), .ok (some [98]), .ok none] := by
  decide

end AgentBridge.Tcp
