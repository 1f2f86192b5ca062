import SharedDictionary.Proofs.Bytes.Standing
import SharedDictionary.Proofs.Session.Attempts

/-!
# What sessions do with their views

A session is made with a view of a dictionary, and what becomes of the view is seen in its single-frame calls
alone.  A call of a compressor writes the frame that the encoder makes of the content with some dictionary
(`Compressor.WritesWith`).  A call of a decompressor decodes its input with some dictionary, in one go or through
buffers (`Decompressor.ReadsWith`).  Which dictionary that is follows from the view and from which calls before
have succeeded (`Compressor.Conduct`, `Decompressor.Conduct`): a digest and undigested content are there for
every call, and a prefix is the history of all calls up to the first success.

The main result is `prefix_serves_until_success`.
-/

namespace SharedDictionary

/-- A view is a prefix exactly if it serves a single frame. -/
theorem DictView.any_isPrefixed_iff {α : Type} {view : Option (DictView α)} :
    view.any (·.isPrefixed) = true ↔ ∃ content, view = some (.prefixed content) := by
  constructor
  · intro h
    match view, h with
    | some (.prefixed content), _ => exact ⟨content, rfl⟩
  · rintro ⟨content, rfl⟩
    rfl

/-! ### Compressors -/

namespace Compressor

/-- A call writes the frame of its content with a dictionary, behind the output before it. -/
def WritesWith (c : Compressor) (dict : LoadedDictionary) (a : Attempt Compressor) : Prop :=
  compressing.result a
    = (.ok (), if a.session.hasPendingPrefix then ⟨c.config, none⟩ else a.session,
      a.out ++ encodeFrame dict c.config.usesChecksum a.input)

theorem writesWith_of_dictionary {c : Compressor} {dict : LoadedDictionary} {a : Attempt Compressor}
    (hconfig : a.session.config = c.config) (hdict : a.session.dictionary = .ok dict) :
    c.WritesWith dict a := by
  have hproduce : compressing.produce a.session a.input
      = .ok (encodeFrame dict c.config.usesChecksum a.input) := by
    show a.session.encode a.input = _
    rw [encode, hdict, hconfig]
    rfl
  have hresult := compressing.frame_of_ok hproduce a.out
  rw [show compressing.bare a.session = ⟨c.config, none⟩ from congrArg (Compressor.mk · none) hconfig]
    at hresult
  exact hresult

/-- What a compressor does with its view, whatever is asked of it. -/
structure Conduct (c : Compressor) : Prop where
  /-- The single-frame calls are a chain that uses up a prefix with its first success. -/
  lifecycle : ∀ calls, compressing.Lifecycle c (c.log calls) (c.ran calls)
  /-- A prefix is pending exactly if the session was made with one and no call has succeeded. -/
  pending_iff : ∀ calls, (c.ran calls).hasPendingPrefix = true
    ↔ (∃ content, c.dict = some (.prefixed content)) ∧ ∀ a ∈ c.log calls, compressing.succeeds a = false
  /-- Without a view every frame is written without history and without tables. -/
  bare : c.dict = none → ∀ calls, ∀ a ∈ c.log calls, c.WritesWith (.plain ByteArray.empty) a
  /-- A digested dictionary serves every frame. -/
  digested : ∀ {level digest}, c.dict = some (.digested level digest) →
    ∀ calls, ∀ a ∈ c.log calls, c.WritesWith digest.dict a
  /-- Undigested content serves every frame with all that it loads to. -/
  undigested : ∀ {content dict}, c.dict = some (.undigested content) →
    LoadedDictionary.load? content = some dict →
    ∀ calls, ∀ a ∈ c.log calls, c.WritesWith dict a
  /-- Undigested content that cannot be loaded is not passed over: no frame is written. -/
  unreadable : ∀ {content}, c.dict = some (.undigested content) →
    LoadedDictionary.load? content = none →
    ∀ calls, ∀ a ∈ c.log calls,
      compressing.result a = (.error (.ofCodec "compress" .allocation), c, a.out)
  /-- A prefix is the history of the frames up to the first that is written, and none after it has any. -/
  prefixed : ∀ {content}, c.dict = some (.prefixed content) →
    ∀ calls before a after, c.log calls = before ++ a :: after →
      c.WritesWith
        (.plain (if before.any compressing.succeeds then ByteArray.empty else content)) a
  /-- A stream yields the frames that its single-frame calls have written. -/
  stream : ∀ {reader chunkSize s}, ChunkStream.start reader chunkSize c = .ok s →
    ∀ items, s.frames items
      = (c.attempts (.stream reader chunkSize items)).filterMap compressing.output?

section Conduct

variable {c : Compressor} {dict : LoadedDictionary}

/-- Without a prefix, the dictionary of a compressor serves every call. -/
theorem writesWith_of_not_pending (hpending : c.hasPendingPrefix = false) (hdict : c.dictionary = .ok dict)
    (calls : List Call) : ∀ a ∈ c.log calls, c.WritesWith dict a := by
  intro a ha
  have hsession : a.session = c := ((c.chain_log calls).has_lifecycle.unprefixed hpending).2 a ha
  exact writesWith_of_dictionary (by rw [hsession]) (by rw [hsession, hdict])

/-- Without a prefix, a dictionary that cannot be prepared fails every call. -/
theorem result_of_dictionary_error (hpending : c.hasPendingPrefix = false) {e : DictError}
    (hdict : c.dictionary = .error e) (calls : List Call) :
    ∀ a ∈ c.log calls, compressing.result a = (.error e, c, a.out) := by
  intro a ha
  have hsession : a.session = c := ((c.chain_log calls).has_lifecycle.unprefixed hpending).2 a ha
  have hproduce : compressing.produce c a.input = .error e := by
    show c.encode a.input = _
    rw [encode, hdict]
    rfl
  rw [SessionKind.result, hsession]
  exact compressing.frame_of_error hproduce a.out

/-- **Every compressor treats its view so.** -/
theorem conduct (c : Compressor) : c.Conduct where
  lifecycle calls := (c.chain_log calls).has_lifecycle
  pending_iff calls := by
    rw [← DictView.any_isPrefixed_iff]
    exact (c.chain_log calls).has_lifecycle.pending_iff
  bare hview := writesWith_of_not_pending (by rw [hasPendingPrefix, hview]; rfl)
    (by rw [dictionary, hview])
  digested hview := writesWith_of_not_pending (by rw [hasPendingPrefix, hview]; rfl)
    (by rw [dictionary, hview])
  undigested hview hload := writesWith_of_not_pending (by rw [hasPendingPrefix, hview]; rfl)
    (by simp only [dictionary, hview, hload])
  unreadable hview hload := result_of_dictionary_error (by rw [hasPendingPrefix, hview]; rfl)
    (by simp only [dictionary, hview, hload])
  prefixed {content} hview calls before a after hsplit := by
    have hpending : compressing.pending c = true := DictView.any_isPrefixed_iff.mpr ⟨content, hview⟩
    rcases (c.chain_log calls).has_lifecycle.session_cases hpending hsplit with
      ⟨hany, hsession⟩ | ⟨hany, hsession⟩
    · rw [hany, if_pos rfl]
      exact writesWith_of_dictionary (by rw [hsession]; rfl) (by rw [hsession]; rfl)
    · rw [hany, if_neg Bool.false_ne_true]
      exact writesWith_of_dictionary (by rw [hsession]) (by rw [hsession, dictionary, hview])
  stream hstart items := by
    rw [attempts, hstart]
    exact ChunkStream.frames_eq _ items

end Conduct

end Compressor

/-! ### Decompressors -/

namespace Decompressor

/-- A call reads its input with a dictionary, or without one. -/
structure ReadsWith (d : Decompressor) (dict : Option LoadedDictionary) (a : Attempt Decompressor) :
    Prop where
  /-- What is no frame, or declares more than the session admits, is refused without being decoded. -/
  refused : ∀ {e}, d.checkSize a.input = .error e → a.session.decode a.input = .error (.error e)
  /-- A declared size that no memory holds breaks the call off. -/
  oversized : ∀ {size}, d.checkSize a.input = .ok (some size) → maxCapacity < size →
    a.session.decode a.input = .error (.panic "capacity overflow")
  /-- An input that declares its size is decoded in one go. -/
  whole : ∀ {size}, d.checkSize a.input = .ok (some size) → size ≤ maxCapacity →
    a.session.decode a.input
      = (decodeWhole dict a.input size).mapError fun e => .error (a.session.decodeError a.input e)
  /-- Any other input is decoded through buffers. -/
  streamed : d.checkSize a.input = .ok none →
    a.session.decode a.input
      = (decodeStream dict a.session.hasPendingPrefix a.input d.config.frameLimit).mapError fun e =>
          .error (a.session.streamError a.input e)

/-- The check of the declared size looks at the parameters of a session only. -/
theorem checkSize_congr {d d' : Decompressor} (h : d.config = d'.config) (input : ByteArray) :
    d.checkSize input = d'.checkSize input := by
  rw [checkSize, checkSize, h]

theorem readsWith_of_dictionary {d : Decompressor} {dict : Option LoadedDictionary}
    {a : Attempt Decompressor} (hconfig : a.session.config = d.config)
    (hdict : a.session.dictionary = .ok dict) : d.ReadsWith dict a where
  refused hcheck := by
    rw [← checkSize_congr hconfig] at hcheck
    rw [decode, hcheck]
  oversized hcheck hsize := by
    rw [← checkSize_congr hconfig] at hcheck
    simp only [decode, hcheck, hdict, if_pos hsize]
  whole hcheck hsize := by
    rw [← checkSize_congr hconfig] at hcheck
    simp only [decode, hcheck, hdict, if_neg (Nat.not_lt.mpr hsize)]
  streamed hcheck := by
    rw [← checkSize_congr hconfig] at hcheck
    simp only [decode, hcheck, hdict, hconfig]

/-- What a decompressor does with its view, whatever is asked of it. -/
structure Conduct (d : Decompressor) : Prop where
  /-- The single-frame calls are a chain that uses up a prefix with its first success. -/
  lifecycle : ∀ calls, decompressing.Lifecycle d (d.log calls) (d.ran calls)
  /-- A prefix is pending exactly if the session was made with one and no call has succeeded. -/
  pending_iff : ∀ calls, (d.ran calls).hasPendingPrefix = true
    ↔ (∃ content, d.dict = some (.prefixed content)) ∧ ∀ a ∈ d.log calls, decompressing.succeeds a = false
  /-- Without a view every input is read without a dictionary. -/
  bare : d.dict = none → ∀ calls, ∀ a ∈ d.log calls, d.ReadsWith none a
  /-- A digested dictionary serves every input. -/
  digested : ∀ {level digest}, d.dict = some (.digested level digest) →
    ∀ calls, ∀ a ∈ d.log calls, d.ReadsWith (some digest.dict) a
  /-- Undigested content serves every input with all that it loads to, unless it is empty. -/
  undigested : ∀ {content dict}, d.dict = some (.undigested content) →
    LoadedDictionary.load? content = some dict →
    ∀ calls, ∀ a ∈ d.log calls, d.ReadsWith (if content.isEmpty then none else some dict) a
  /-- Undigested content that cannot be loaded is not passed over: no input is read that is not refused
  for its size. -/
  unreadable : ∀ {content}, d.dict = some (.undigested content) →
    LoadedDictionary.load? content = none →
    ∀ calls, ∀ a ∈ d.log calls, ∀ {declared}, d.checkSize a.input = .ok declared →
      decompressing.result a
        = (.error (.error (.ofCodec "load undigested dictionary" .allocation)), d, a.out)
  /-- A prefix is the history of the inputs up to the first that is read, and none after it has any. -/
  prefixed : ∀ {content}, d.dict = some (.prefixed content) →
    ∀ calls before a after, d.log calls = before ++ a :: after →
      d.ReadsWith (if before.any decompressing.succeeds || content.isEmpty then none
        else some (.plain content)) a
  /-- A run over concatenated frames yields what its single-frame calls have appended, and then all of
  them have succeeded. -/
  run : ∀ {input bytes}, (d.decompressFrames input).1 = .ok bytes →
    (∀ a ∈ d.attempts (.frames input), decompressing.succeeds a = true)
      ∧ bytes = (d.attempts (.frames input)).foldl (fun _ a => (decompressing.result a).2.2)
          ByteArray.empty

section Conduct

variable {d : Decompressor} {dict : Option LoadedDictionary}

/-- Without a prefix, the dictionary of a decompressor serves every call. -/
theorem readsWith_of_not_pending (hpending : d.hasPendingPrefix = false)
    (hdict : d.dictionary = .ok dict) (calls : List Call) : ∀ a ∈ d.log calls, d.ReadsWith dict a := by
  intro a ha
  have hsession : a.session = d := ((d.chain_log calls).has_lifecycle.unprefixed hpending).2 a ha
  exact readsWith_of_dictionary (by rw [hsession]) (by rw [hsession, hdict])

/-- Without a prefix, a dictionary that cannot be prepared fails every call that gets as far as that. -/
theorem result_of_dictionary_error (hpending : d.hasPendingPrefix = false) {e : DictError}
    (hdict : d.dictionary = .error e) (calls : List Call) :
    ∀ a ∈ d.log calls, ∀ {declared}, d.checkSize a.input = .ok declared →
      decompressing.result a = (.error (.error e), d, a.out) := by
  intro a ha declared hcheck
  have hsession : a.session = d := ((d.chain_log calls).has_lifecycle.unprefixed hpending).2 a ha
  have hproduce : decompressing.produce d a.input = .error (.error e) := by
    show d.decode a.input = _
    simp only [decode, hcheck, hdict]
  rw [SessionKind.result, hsession]
  exact decompressing.frame_of_error hproduce a.out

/-- **Every decompressor treats its view so.** -/
theorem conduct (d : Decompressor) : d.Conduct where
  lifecycle calls := (d.chain_log calls).has_lifecycle
  pending_iff calls := by
    rw [← DictView.any_isPrefixed_iff]
    exact (d.chain_log calls).has_lifecycle.pending_iff
  bare hview := readsWith_of_not_pending (by rw [hasPendingPrefix, hview]; rfl)
    (by rw [dictionary, hview])
  digested hview := readsWith_of_not_pending (by rw [hasPendingPrefix, hview]; rfl)
    (by rw [dictionary, hview])
  undigested {content dict} hview hload := by
    refine readsWith_of_not_pending (by rw [hasPendingPrefix, hview]; rfl) ?_
    simp only [dictionary, hview, hload]
    split <;> rfl
  unreadable {content} hview hload := by
    have hcontent : ¬content.isEmpty = true := by
      intro hempty
      rw [isEmpty_iff.mp hempty] at hload
      cases hload
    refine result_of_dictionary_error (by rw [hasPendingPrefix, hview]; rfl) ?_
    simp only [dictionary, hview, if_neg hcontent, hload]
  prefixed {content} hview calls before a after hsplit := by
    have hpending : decompressing.pending d = true := DictView.any_isPrefixed_iff.mpr ⟨content, hview⟩
    rcases (d.chain_log calls).has_lifecycle.session_cases hpending hsplit with
      ⟨hany, hsession⟩ | ⟨hany, hsession⟩
    · rw [hany, Bool.true_or, if_pos rfl]
      exact readsWith_of_dictionary (by rw [hsession]; rfl) (by rw [hsession]; rfl)
    · rw [hany, Bool.false_or]
      exact readsWith_of_dictionary (by rw [hsession]) (by rw [hsession, dictionary, hview])
  run h := eq_of_decompressFrom_eq_ok h

end Conduct

end Decompressor

/-! ### Prefixes -/

/-- **A prefix serves up to the first frame that succeeds, and any other view serves every frame.**
Whatever is asked of a session, valid or damaged, its single-frame calls are a chain in which a prefix
is pending as long as none of them has succeeded.  Until then each frame is written or read with the
prefix as its history, and from then on each call is one to the session with the same parameters and
without a dictionary.  A digest or undigested content is what each frame is written or read with.  A call
that succeeds appends what it has produced, and one that fails leaves the output, the parameters and the
view as they were.  What streams and runs over frames yield is what their single-frame calls have
produced.  A session starts with the view that it is given. -/
theorem prefix_serves_until_success :
    (∀ c : Compressor, c.Conduct) ∧ (∀ d : Decompressor, d.Conduct)
      ∧ ∀ config view c, Compressor.new config view = .ok c → c = ⟨config, view⟩ := by
  refine ⟨Compressor.conduct, Decompressor.conduct, fun config view c hnew => ?_⟩
  exact Compressor.eq_of_new_eq_ok hnew

/-- A damaged frame leaves a prefix pending, and a frame of five bytes uses it up. -/
example :
    let d : Decompressor := ⟨.standard, some (.prefixed ⟨#[1, 2, 3]⟩)⟩
    let frame : ByteArray := ⟨#[0x28, 0xB5, 0x2F, 0xFD, 0x20, 5, 0x29, 0, 0, 104, 101, 108, 108, 111]⟩
    ((d.ran [.frame (frame.extract 0 12) .empty]).hasPendingPrefix,
      (d.ran [.frame (frame.extract 0 12) .empty, .frames frame]).hasPendingPrefix) = (true, false) := by
  decide +kernel

/-- A frame that copies all of its content from the prefix is read once. -/
example :
    let content : ByteArray :=
      ⟨#[1, 2, 3, 4, 5, 6, 7, 8, 9, 10, 11, 12, 13, 14, 15, 16, 17, 18, 19, 20, 21, 22, 23, 24]⟩
    let frame : ByteArray :=
      ⟨#[0x28, 0xB5, 0x2F, 0xFD, 0x20, 0x18, 0x3D, 0, 0, 0, 1, 0x54, 0, 4, 0x15, 0x1B]⟩
    let d : Decompressor := ⟨.standard, some (.prefixed content)⟩
    (d.log [.frame frame .empty, .frame frame .empty]).map decompressing.output?
      = [some content, none] := by
  decide +kernel

end SharedDictionary
