import Quire.Upload.Source

/-! What is read of an upload.

A stream is gathered chunk by chunk. Either it comes to its end and the buffer holds all its chunks,
or it breaks at the first item that is a failure or does not fit any more (`Breaks`); one of the two
it does, and so `gather` is told by them. At no time there is more in the buffer than the limit. The
recorded size of a file decides only whether the file is opened, and whether there can be a buffer:
it may be less or more than what the stream brings. -/
namespace Quire.Upload

/-! ### Chunks -/

/-- How many bytes chunks have together. -/
def total : List ByteArray → Nat
  | [] => 0
  | chunk :: rest => chunk.size + total rest

/-- Chunks behind what is in a buffer. -/
def joinedTo (buffer : ByteArray) (chunks : List ByteArray) : ByteArray :=
  chunks.foldl (· ++ ·) buffer

/-- Chunks one behind the other. -/
def joined (chunks : List ByteArray) : ByteArray := joinedTo ByteArray.empty chunks

@[simp] theorem total_nil : total [] = 0 := rfl

@[simp] theorem total_cons (chunk : ByteArray) (rest : List ByteArray) :
    total (chunk :: rest) = chunk.size + total rest := rfl

theorem size_joinedTo (buffer : ByteArray) (chunks : List ByteArray) :
    (joinedTo buffer chunks).size = buffer.size + total chunks := by
  induction chunks generalizing buffer with
  | nil => rfl
  | cons chunk rest ih =>
    show (joinedTo (buffer ++ chunk) rest).size = _
    rw [ih, ByteArray.size_append, total_cons, Nat.add_assoc]

theorem size_joined (chunks : List ByteArray) : (joined chunks).size = total chunks := by
  rw [joined, size_joinedTo, ByteArray.size_empty, Nat.zero_add]

/-! ### Streams -/

/-- Beside `held` bytes this item has no place. -/
def Refused (limit held : Nat) (item : Except StorageError ByteArray) (e : StorageError) : Prop :=
  item = .error e ∨ ∃ chunk, item = .ok chunk ∧ limit < held + chunk.size ∧
    e = .tooLarge (held + chunk.size) limit

/-- The stream breaks at an item that is a failure, or at a chunk that takes the total past the
limit, after chunks that stay within it. -/
def Breaks (limit : Nat) (stream : ByteStream) (e : StorageError) : Prop :=
  ∃ before item rest, stream = before.map .ok ++ item :: rest ∧ total before ≤ limit ∧
    Refused limit (total before) item e

/-- A stream comes to its end, or there is a first item that has no place. -/
theorem ends_or_refused (limit : Nat) {held : Nat} (hheld : held ≤ limit) (stream : ByteStream) :
    (∃ chunks, stream = chunks.map .ok ∧ held + total chunks ≤ limit) ∨
      ∃ before item rest e, stream = before.map .ok ++ item :: rest ∧ held + total before ≤ limit ∧
        Refused limit (held + total before) item e := by
  induction stream generalizing held with
  | nil => exact .inl ⟨[], rfl, hheld⟩
  | cons item rest ih =>
    cases item with
    | error e => exact .inr ⟨[], .error e, rest, e, rfl, hheld, .inl rfl⟩
    | ok chunk =>
      by_cases hfits : held + chunk.size ≤ limit
      · rcases ih hfits with ⟨chunks, rfl, htotal⟩ | ⟨before, item, rest, e, rfl, htotal, hrefused⟩
        · refine .inl ⟨chunk :: chunks, rfl, ?_⟩
          rwa [total_cons, ← Nat.add_assoc]
        · refine .inr ⟨chunk :: before, item, rest, e, rfl, ?_⟩
          rw [total_cons, ← Nat.add_assoc]
          exact ⟨htotal, hrefused⟩
      · exact .inr ⟨[], .ok chunk, rest, _, rfl, hheld,
          .inr ⟨chunk, rfl, Nat.lt_of_not_le hfits, rfl⟩⟩

/-! ### The buffer -/

section
variable {limit : Nat} {buffer : ByteArray}

/-- Chunks that fit get into the buffer, and the rest is gathered behind them. -/
theorem gather_chunks {chunks : List ByteArray} (h : buffer.size + total chunks ≤ limit)
    (rest : ByteStream) :
    gather limit buffer (chunks.map .ok ++ rest) = gather limit (joinedTo buffer chunks) rest := by
  induction chunks generalizing buffer with
  | nil => rfl
  | cons chunk more ih =>
    rw [total_cons, ← Nat.add_assoc] at h
    have hfits : ¬ limit < buffer.size + chunk.size := by omega
    show gather limit buffer (.ok chunk :: (more.map .ok ++ rest)) = _
    rw [gather, if_neg hfits, ih (by rwa [ByteArray.size_append])]
    rfl

theorem gather_refused {item : Except StorageError ByteArray} {e : StorageError}
    (h : Refused limit buffer.size item e) (rest : ByteStream) :
    gather limit buffer (item :: rest) = .error e := by
  obtain rfl | ⟨chunk, rfl, hexcess, rfl⟩ := h
  · rfl
  · rw [gather, if_pos hexcess]

/-- What there is already and all chunks of a stream, if they stay within the limit. -/
theorem gather_eq_ok_iff (hbuffer : buffer.size ≤ limit) {stream : ByteStream}
    {content : ByteArray} :
    gather limit buffer stream = .ok content ↔
      ∃ chunks, stream = chunks.map .ok ∧ buffer.size + total chunks ≤ limit ∧
        content = joinedTo buffer chunks := by
  constructor
  · intro h
    rcases ends_or_refused limit hbuffer stream with
      ⟨chunks, rfl, htotal⟩ | ⟨before, item, rest, e, rfl, htotal, hrefused⟩
    · rw [← List.append_nil (chunks.map _), gather_chunks htotal] at h
      exact ⟨chunks, rfl, htotal, (Except.ok.inj h).symm⟩
    · rw [gather_chunks htotal, gather_refused (by rwa [size_joinedTo])] at h
      cases h
  · rintro ⟨chunks, rfl, htotal, rfl⟩
    rw [← List.append_nil (chunks.map _), gather_chunks htotal]
    rfl

/-- What is gathered stays within the limit, if what there is already does. -/
theorem size_le_of_gather {content : ByteArray} {stream : ByteStream}
    (hbuffer : buffer.size ≤ limit) (h : gather limit buffer stream = .ok content) :
    content.size ≤ limit := by
  obtain ⟨chunks, -, htotal, rfl⟩ := (gather_eq_ok_iff hbuffer).mp h
  rwa [size_joinedTo]

/-- The rest of a stream is gathered behind what its beginning has left in the buffer. -/
theorem gather_append (before rest : ByteStream) :
    gather limit buffer (before ++ rest) =
      gather limit buffer before >>= fun buffer => gather limit buffer rest := by
  induction before generalizing buffer with
  | nil => rfl
  | cons item more ih =>
    cases item with
    | error e => rfl
    | ok chunk =>
      by_cases hfits : limit < buffer.size + chunk.size
      · simp [gather, hfits, bind, Except.bind]
      · simp [gather, hfits, ih]

end

theorem gather_breaks {limit : Nat} {before : List ByteArray}
    {item : Except StorageError ByteArray} {e : StorageError} (htotal : total before ≤ limit)
    (h : Refused limit (total before) item e) (rest : ByteStream) :
    gather limit ByteArray.empty (before.map .ok ++ item :: rest) = .error e := by
  rw [gather_chunks (by simpa using htotal)]
  exact gather_refused ((size_joined before).symm ▸ h) rest

theorem gather_eq_error_iff {limit : Nat} {stream : ByteStream} {e : StorageError} :
    gather limit ByteArray.empty stream = .error e ↔ Breaks limit stream e := by
  constructor
  · intro h
    rcases ends_or_refused limit (Nat.zero_le limit) stream with
      ⟨chunks, rfl, htotal⟩ | ⟨before, item, rest, e', rfl, htotal, hrefused⟩
    · rw [(gather_eq_ok_iff (Nat.zero_le limit)).mpr ⟨chunks, rfl, htotal, rfl⟩] at h
      cases h
    · rw [Nat.zero_add] at htotal hrefused
      rw [gather_breaks htotal hrefused] at h
      exact Except.error.inj h ▸ ⟨before, item, rest, rfl, htotal, hrefused⟩
  · rintro ⟨before, item, rest, rfl, htotal, hrefused⟩
    exact gather_breaks htotal hrefused rest

/-! ### Streams that are gathered without a limit -/

theorem collectFrom_chunks (buffer : ByteArray) (chunks : List ByteArray) :
    ByteStream.collectFrom buffer (chunks.map .ok) = .ok (joinedTo buffer chunks) := by
  induction chunks generalizing buffer with
  | nil => rfl
  | cons chunk rest ih => exact ih (buffer ++ chunk)

theorem chunks_of_collectFrom {buffer content : ByteArray} {stream : ByteStream}
    (h : ByteStream.collectFrom buffer stream = .ok content) :
    ∃ chunks : List ByteArray, stream = chunks.map .ok := by
  induction stream generalizing buffer with
  | nil => exact ⟨[], rfl⟩
  | cons item rest ih =>
    cases item with
    | error e => cases h
    | ok chunk =>
      obtain ⟨chunks, rfl⟩ := ih h
      exact ⟨chunk :: chunks, rfl⟩

/-- What a stream brings is gathered as a whole if it stays within the limit. -/
theorem gather_of_collectFrom {limit : Nat} {buffer content : ByteArray} {stream : ByteStream}
    (h : ByteStream.collectFrom buffer stream = .ok content) (hlimit : content.size ≤ limit) :
    gather limit buffer stream = .ok content := by
  obtain ⟨chunks, rfl⟩ := chunks_of_collectFrom h
  obtain rfl := Except.ok.inj ((collectFrom_chunks buffer chunks).symm.trans h)
  rw [size_joinedTo] at hlimit
  rw [← List.append_nil (chunks.map _), gather_chunks hlimit]
  rfl

/-! ### Reading -/

section
variable {σ : Type} {openStream : StateM σ (Except StorageError ByteStream)} {r : Reference}
  {limit : Nat} {s s' : σ}

/-- If the file is not opened or there can be a buffer, nothing is broken off. -/
theorem readAll?_eq (h : r.size ≤ limit → r.size ≤ maxCapacity) :
    readAll? openStream r limit = some <$> readAll openStream r limit := by
  have hroom : ¬ (decide (r.size ≤ limit) && decide (maxCapacity < r.size)) = true := by
    rw [Bool.and_eq_true, decide_eq_true_iff, decide_eq_true_iff]
    omega
  rw [readAll?, if_neg hroom]
  rfl

theorem readAll?_vast (h : r.size ≤ limit) (hvast : maxCapacity < r.size) :
    readAll? openStream r limit = (do
      match ← openStream with
      | .error e => return some (.error e)
      | .ok _ => return none) := by
  have hbeyond : (decide (r.size ≤ limit) && decide (maxCapacity < r.size)) = true := by
    rw [Bool.and_eq_true, decide_eq_true_iff, decide_eq_true_iff]
    exact ⟨h, hvast⟩
  unfold readAll?
  exact if_pos hbeyond

theorem run_oversized (h : limit < r.size) :
    (readAll? openStream r limit).run s = (some (.error (.tooLarge r.size limit)), s) := by
  rw [readAll?_eq (by omega), readAll, if_pos h]
  rfl

theorem run_unopened (h : r.size ≤ limit) {e : StorageError}
    (hopen : openStream.run s = (.error e, s')) :
    (readAll? openStream r limit).run s = (some (.error e), s') := by
  by_cases hvast : maxCapacity < r.size
  · rw [readAll?_vast h hvast, StateT.run_bind, hopen]
    rfl
  · rw [readAll?_eq (by omega), readAll, if_neg (Nat.not_lt.mpr h), StateT.run_map,
      StateT.run_bind, hopen]
    rfl

theorem run_opened (h : r.size ≤ limit) {stream : ByteStream}
    (hopen : openStream.run s = (.ok stream, s')) :
    (readAll? openStream r limit).run s =
      (if maxCapacity < r.size then none else some (gather limit ByteArray.empty stream), s') := by
  by_cases hvast : maxCapacity < r.size
  · rw [readAll?_vast h hvast, StateT.run_bind, hopen, if_pos hvast]
    rfl
  · rw [readAll?_eq (by omega), readAll, if_neg (Nat.not_lt.mpr h), StateT.run_map,
      StateT.run_bind, hopen, if_neg hvast]
    rfl

end

/-- A file whose recorded size is beyond the limit is not opened. Of any other, all chunks are read
if none is a failure and together they stay within the limit, and else it is the first item to
break the stream that is told; whether the recorded size is theirs makes no difference, but a buffer
can be made for it. What a beginning of the stream has left in the buffer is within the limit, and
the rest is gathered behind it. -/
theorem read_is_bounded {σ : Type} (openStream : StateM σ (Except StorageError ByteStream))
    (r : Reference) (limit : Nat) (s : σ) :
    (limit < r.size →
      (readAll? openStream r limit).run s = (some (.error (.tooLarge r.size limit)), s)) ∧
    (r.size ≤ limit →
      (∀ e s', openStream.run s = (.error e, s') →
        (readAll? openStream r limit).run s = (some (.error e), s')) ∧
      ∀ stream s', openStream.run s = (.ok stream, s') →
        (maxCapacity < r.size → (readAll? openStream r limit).run s = (none, s')) ∧
        (r.size ≤ maxCapacity → ∃ read,
          (readAll? openStream r limit).run s = (some read, s') ∧
          (∀ content, read = .ok content ↔
            ∃ chunks, stream = chunks.map .ok ∧ total chunks ≤ limit ∧ content = joined chunks) ∧
          (∀ e, read = .error e ↔ Breaks limit stream e) ∧
          ∀ before rest buffer, stream = before ++ rest →
            gather limit ByteArray.empty before = .ok buffer →
              buffer.size ≤ limit ∧ read = gather limit buffer rest)) := by
  refine ⟨run_oversized, fun hsize => ⟨fun e s' hopen => run_unopened hsize hopen,
    fun stream s' hopen => ?_⟩⟩
  have hrun := run_opened hsize hopen
  have hempty : ByteArray.empty.size ≤ limit := Nat.zero_le limit
  constructor
  · intro hvast
    rw [hrun, if_pos hvast]
  · intro hroom
    rw [if_neg (Nat.not_lt.mpr hroom)] at hrun
    refine ⟨_, hrun, fun content => ?_, fun e => gather_eq_error_iff, ?_⟩
    · have hok : gather limit ByteArray.empty stream = .ok content ↔ _ := gather_eq_ok_iff hempty
      simpa [joined] using hok
    · rintro before rest buffer rfl hbefore
      refine ⟨size_le_of_gather hempty hbefore, ?_⟩
      rw [gather_append, hbefore]
      rfl

/-- Three bytes in two chunks; the state counts how often they are opened. -/
def threeBytes : StateM Nat (Except StorageError ByteStream) :=
  modifyGet fun openings => (.ok [.ok ⟨#[1, 2]⟩, .ok ⟨#[3]⟩], openings + 1)

/-- A reference with some recorded size. -/
def recorded (size : Nat) : Reference := ⟨"a", size, ⟨0, 0⟩⟩

theorem read_is_bounded_threeBytes :
    (readAll? threeBytes (recorded 1) 3).run 0 = (some (.ok ⟨#[1, 2, 3]⟩), 1) ∧
    (readAll? threeBytes (recorded 1) 2).run 0 = (some (.error (.tooLarge 3 2)), 1) ∧
    (readAll? threeBytes (recorded 7) 3).run 0 = (some (.error (.tooLarge 7 3)), 0) := by
  have hopen : threeBytes.run 0 = (.ok [.ok ⟨#[1, 2]⟩, .ok ⟨#[3]⟩], 1) := rfl
  obtain ⟨read, hrun, hok, -⟩ :=
    ((read_is_bounded threeBytes (recorded 1) 3 0).2 (by decide)).2 _ _ hopen |>.2 (by decide)
  obtain ⟨read', hrun', -, herror, -⟩ :=
    ((read_is_bounded threeBytes (recorded 1) 2 0).2 (by decide)).2 _ _ hopen |>.2 (by decide)
  have hwhole : read = .ok ⟨#[1, 2, 3]⟩ :=
    (hok _).mpr ⟨[⟨#[1, 2]⟩, ⟨#[3]⟩], rfl, by decide, rfl⟩
  have hexcess : read' = .error (.tooLarge 3 2) :=
    (herror _).mpr ⟨[⟨#[1, 2]⟩], .ok ⟨#[3]⟩, [], rfl, by decide, .inr ⟨_, rfl, by decide, rfl⟩⟩
  rw [hrun, hrun', hwhole, hexcess]
  exact ⟨rfl, rfl, (read_is_bounded threeBytes (recorded 7) 3 0).1 (by decide)⟩

/-- The three bytes are within the limit and so is their recorded size, but there is no buffer as
large as it says. -/
theorem vast_reference_breaks :
    (recorded 0x8000000000000000).size ≤ 0xFFFFFFFFFFFFFFFF ∧
    total [⟨#[1, 2]⟩, ⟨#[3]⟩] ≤ 0xFFFFFFFFFFFFFFFF ∧
    (readAll? threeBytes (recorded 0x8000000000000000) 0xFFFFFFFFFFFFFFFF).run 0 = (none, 1) := by
  refine ⟨by decide, by decide, ?_⟩
  rw [run_opened (by decide) (rfl : threeBytes.run 0 = (.ok [.ok ⟨#[1, 2]⟩, .ok ⟨#[3]⟩], 1)),
    if_pos (by decide)]

end Quire.Upload
