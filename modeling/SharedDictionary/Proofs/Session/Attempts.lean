import SharedDictionary.Session.ChunkStream
import SharedDictionary.Session.Decompressor

/-!
# The single-frame calls of a session

Whatever is asked of a session, what becomes of its dictionary is settled by single-frame calls: a
stream makes one for every chunk that it gathers, and a run over concatenated frames makes one for
every frame that it finds.  An `Attempt` is such a call, together with the session that it meets.

Compressors and decompressors treat a single-frame call alike (`SessionKind`): a call that succeeds
appends what it has produced and uses up a prefix, and a call that fails changes nothing.  Calls that
follow each other are a `SessionKind.Chain`, and the sessions in a chain are known from its start and
from which calls have succeeded (`SessionKind.Chain.eq_left`).

Every run of a session is a chain of its attempts (`Compressor.chain_log`, `Decompressor.chain_log`),
however its helpers end.  What streams and runs over frames yield is what their attempts have appended
(`ChunkStream.frames_eq`, `Decompressor.eq_of_decompressFrom_eq_ok`).
-/

namespace SharedDictionary

/-- A single-frame call: the session that it meets, its input, and the output before it. -/
structure Attempt (S : Type) where
  session : S
  input : ByteArray
  out : ByteArray

/-- A kind of session, and how it treats a single-frame call. -/
structure SessionKind (S ε : Type) where
  /-- A prefix waits for the next frame. -/
  pending : S → Bool
  /-- The session with the same parameters and without a dictionary. -/
  bare : S → S
  /-- What a session makes of an input. -/
  produce : S → ByteArray → Except ε ByteArray
  /-- A single-frame call on an input, with some output before it. -/
  frame : S → ByteArray → ByteArray → Except ε Unit × S × ByteArray
  pending_bare : ∀ s, pending (bare s) = false
  frame_of_ok : ∀ {s input bytes}, produce s input = .ok bytes → ∀ out,
    frame s input out = (.ok (), if pending s then bare s else s, out ++ bytes)
  frame_of_error : ∀ {s input e}, produce s input = .error e → ∀ out,
    frame s input out = (.error e, s, out)

namespace SessionKind

variable {S ε : Type} (K : SessionKind S ε)

/-- What comes of an attempt: the outcome, the session and the output after it. -/
def result (a : Attempt S) : Except ε Unit × S × ByteArray := K.frame a.session a.input a.out

/-- An attempt succeeds. -/
def succeeds (a : Attempt S) : Bool := (K.result a).1.isOk

/-- The output after an attempt that succeeds. -/
def output? (a : Attempt S) : Option ByteArray :=
  match K.result a with
  | (.ok (), _, out) => some out
  | (.error _, _, _) => none

/-- Attempts that follow each other lead from one session to another: each meets the session that the
one before it has left. -/
inductive Chain : S → List (Attempt S) → S → Prop
  | nil (s : S) : Chain s [] s
  | cons (a : Attempt S) {attempts : List (Attempt S)} {s' : S}
      (rest : Chain (K.result a).2.1 attempts s') : Chain a.session (a :: attempts) s'

/-- The session that is left after some attempts. -/
def left (s : S) (attempts : List (Attempt S)) : S :=
  if K.pending s && attempts.any K.succeeds then K.bare s else s

/-- An attempt appends what it produces, or leaves everything as it was. -/
theorem result_cases (a : Attempt S) :
    (∃ bytes, K.produce a.session a.input = .ok bytes
        ∧ K.result a = (.ok (), if K.pending a.session then K.bare a.session else a.session,
            a.out ++ bytes))
      ∨ ∃ e, K.produce a.session a.input = .error e ∧ K.result a = (.error e, a.session, a.out) := by
  rcases hproduce : K.produce a.session a.input with e | bytes
  · exact Or.inr ⟨e, rfl, K.frame_of_error hproduce a.out⟩
  · exact Or.inl ⟨bytes, rfl, K.frame_of_ok hproduce a.out⟩

theorem left_of_not_pending {s : S} (h : K.pending s = false) (attempts : List (Attempt S)) :
    K.left s attempts = s := by
  rw [left, h, Bool.false_and]
  rfl

theorem left_of_pending {s : S} (h : K.pending s = true) (attempts : List (Attempt S)) :
    K.left s attempts = if attempts.any K.succeeds then K.bare s else s := by
  rw [left, h, Bool.true_and]

/-- A single attempt leaves what it leaves. -/
theorem left_singleton (a : Attempt S) : K.left a.session [a] = (K.result a).2.1 := by
  have hany : [a].any K.succeeds = K.succeeds a := Bool.or_false _
  rw [left, hany]
  rcases K.result_cases a with ⟨bytes, -, hresult⟩ | ⟨e, -, hresult⟩
  · rw [succeeds, hresult]
    exact congrArg (fun b => if b = true then K.bare a.session else a.session) (Bool.and_true _)
  · rw [succeeds, hresult]
    exact congrArg (fun b => if b = true then K.bare a.session else a.session) (Bool.and_false _)

/-- A session without a prefix stays as it is, and a prefix is used up once. -/
theorem left_append (s : S) (first second : List (Attempt S)) :
    K.left (K.left s first) second = K.left s (first ++ second) := by
  cases hpending : K.pending s with
  | false => rw [K.left_of_not_pending hpending, K.left_of_not_pending hpending,
      K.left_of_not_pending hpending]
  | true =>
      rw [K.left_of_pending hpending, K.left_of_pending hpending, List.any_append]
      cases first.any K.succeeds with
      | false => exact K.left_of_pending hpending second
      | true => exact K.left_of_not_pending (K.pending_bare s) second

variable {K} {s s' : S} {attempts : List (Attempt S)}

theorem Chain.append {s'' : S} {more : List (Attempt S)} (first : K.Chain s attempts s')
    (second : K.Chain s' more s'') : K.Chain s (attempts ++ more) s'' := by
  induction first with
  | nil s => exact second
  | cons a rest ih => exact .cons a (ih second)

/-- **The session at the end of a chain** is the one at its start, or the same without a dictionary. -/
theorem Chain.eq_left (h : K.Chain s attempts s') : s' = K.left s attempts := by
  induction h with
  | nil s =>
      rw [left, List.any_nil, Bool.and_false]
      rfl
  | cons a rest ih => rw [ih, ← K.left_singleton a, left_append, List.singleton_append]

/-- A chain can be cut anywhere. -/
theorem Chain.cut {before after : List (Attempt S)} (h : K.Chain s (before ++ after) s') :
    ∃ middle, K.Chain s before middle ∧ K.Chain middle after s' := by
  induction before generalizing s with
  | nil => exact ⟨s, .nil s, h⟩
  | cons a before ih =>
      cases h with
      | cons _ rest =>
          obtain ⟨middle, hbefore, hafter⟩ := ih rest
          exact ⟨middle, .cons a hbefore, hafter⟩

/-- **The session that an attempt meets** is what the attempts before it have left. -/
theorem Chain.session_eq {before after : List (Attempt S)} {a : Attempt S}
    (h : K.Chain s (before ++ a :: after) s') : a.session = K.left s before := by
  obtain ⟨middle, hbefore, hafter⟩ := h.cut
  cases hafter
  exact hbefore.eq_left

variable (K) in
/-- What a chain of attempts does with a session and its dictionary. -/
structure Lifecycle (s : S) (attempts : List (Attempt S)) (s' : S) : Prop where
  /-- Each attempt meets the session that the one before it has left. -/
  chain : K.Chain s attempts s'
  /-- A prefix is pending as long as no attempt has succeeded. -/
  pending_iff : K.pending s' = true ↔ K.pending s = true ∧ ∀ a ∈ attempts, K.succeeds a = false
  /-- Up to the first success an attempt meets the session with its prefix, and from then on the
  session with the same parameters and without a dictionary. -/
  prefixed : K.pending s = true →
    s' = (if attempts.any K.succeeds then K.bare s else s)
      ∧ ∀ before a after, attempts = before ++ a :: after →
          a.session = if before.any K.succeeds then K.bare s else s
  /-- A view that is no prefix is there for every attempt. -/
  unprefixed : K.pending s = false → s' = s ∧ ∀ a ∈ attempts, a.session = s
  /-- An attempt appends what it produces, or leaves the output and the session as they were. -/
  atomic : ∀ a ∈ attempts,
    (∃ bytes, K.produce a.session a.input = .ok bytes ∧ (K.result a).1 = .ok ()
        ∧ (K.result a).2.2 = a.out ++ bytes)
      ∨ ∃ e, K.produce a.session a.input = .error e
        ∧ K.result a = (.error e, a.session, a.out)

/-- **Every chain of attempts uses up a prefix with its first success and nothing else.** -/
theorem Chain.has_lifecycle (h : K.Chain s attempts s') : K.Lifecycle s attempts s' where
  chain := h
  pending_iff := by
    have hnone : attempts.any K.succeeds = false ↔ ∀ a ∈ attempts, K.succeeds a = false := by
      simp only [List.any_eq_false, Bool.not_eq_true]
    rw [h.eq_left, ← hnone]
    cases hpending : K.pending s with
    | false =>
        rw [K.left_of_not_pending hpending, hpending]
        exact iff_of_false Bool.false_ne_true fun hboth => Bool.false_ne_true hboth.1
    | true =>
        rw [K.left_of_pending hpending, and_iff_right rfl]
        cases attempts.any K.succeeds with
        | false => exact iff_of_true hpending rfl
        | true =>
            rw [if_pos rfl, K.pending_bare]
            exact iff_of_false Bool.false_ne_true Bool.noConfusion
  prefixed hpending := by
    refine ⟨?_, fun before a after hsplit => ?_⟩
    · rw [h.eq_left, K.left_of_pending hpending]
    · subst hsplit
      rw [h.session_eq, K.left_of_pending hpending]
  unprefixed hpending := by
    refine ⟨?_, fun a ha => ?_⟩
    · rw [h.eq_left, K.left_of_not_pending hpending]
    · obtain ⟨before, after, rfl⟩ := List.append_of_mem ha
      rw [h.session_eq, K.left_of_not_pending hpending]
  atomic a _ := by
    rcases K.result_cases a with ⟨bytes, hproduce, hresult⟩ | ⟨e, hproduce, hresult⟩
    · exact Or.inl ⟨bytes, hproduce, by rw [hresult], by rw [hresult]⟩
    · exact Or.inr ⟨e, hproduce, hresult⟩

/-- Where a prefix was pending at first, an attempt meets the session with it, or the one without. -/
theorem Lifecycle.session_cases {before after : List (Attempt S)} {a : Attempt S}
    (h : K.Lifecycle s attempts s') (hpending : K.pending s = true) (hsplit : attempts = before ++ a :: after) :
    (before.any K.succeeds = true ∧ a.session = K.bare s)
      ∨ (before.any K.succeeds = false ∧ a.session = s) := by
  have hsession := (h.prefixed hpending).2 before a after hsplit
  cases hany : before.any K.succeeds with
  | true =>
      rw [hany, if_pos rfl] at hsession
      exact Or.inl ⟨rfl, hsession⟩
  | false =>
      rw [hany, if_neg Bool.false_ne_true] at hsession
      exact Or.inr ⟨rfl, hsession⟩

end SessionKind

/-! ### Compressors -/

/-- Compressors as a kind of session. -/
def compressing : SessionKind Compressor DictError where
  pending := Compressor.hasPendingPrefix
  bare c := ⟨c.config, none⟩
  produce := Compressor.encode
  frame := Compressor.compressFrame
  pending_bare _ := rfl
  frame_of_ok h out := by
    rw [Compressor.compressFrame, h]
    rfl
  frame_of_error h out := by rw [Compressor.compressFrame, h]

namespace ChunkStream

section Asking

variable {S : Type}

/-- The chunk that a stream hands to its compressor next, if it does. -/
def chunk? (s : ChunkStream S) : Option ByteArray :=
  if s.done then none
  else
    match s.reader.fill s.chunkSize ByteArray.empty with
    | (.error _, _) => none
    | (.ok chunk, _) => if chunk.isEmpty then none else some chunk

/-- The single-frame call that a stream makes next, if it does. -/
def attempt? (s : ChunkStream S) : Option (Attempt S) :=
  s.chunk?.map fun chunk => ⟨s.compressor, chunk, ByteArray.empty⟩

variable [FrameCompressor S]

/-- The stream after it was asked for some items. -/
def asked (s : ChunkStream S) : Nat → ChunkStream S
  | 0 => s
  | items + 1 => s.next.2.asked items

/-- The single-frame calls of a stream that is asked for some items. -/
def attempts (s : ChunkStream S) : Nat → List (Attempt S)
  | 0 => []
  | items + 1 => s.attempt?.toList ++ s.next.2.attempts items

/-- The frames among the items that a stream is asked for. -/
def frames (s : ChunkStream S) : Nat → List ByteArray
  | 0 => []
  | items + 1 =>
    match s.next.1 with
    | some (.ok frame) => frame :: s.next.2.frames items
    | _ => s.next.2.frames items

/-- Asking for one more item. -/
theorem asked_succ (s : ChunkStream S) (items : Nat) : s.asked (items + 1) = (s.asked items).next.2 := by
  induction items generalizing s with
  | zero => rfl
  | succ items ih => exact ih s.next.2

/-- A stream that makes no call leaves its compressor and yields no frame; one that makes a call
yields what comes of it. -/
theorem next_cases (s : ChunkStream S) :
    (s.chunk? = none ∧ s.next.2.compressor = s.compressor ∧ ∀ frame, s.next.1 ≠ some (.ok frame))
      ∨ ∃ chunk, s.chunk? = some chunk
        ∧ s.next.2.compressor = (FrameCompressor.compressFrame s.compressor chunk ByteArray.empty).2.1
        ∧ s.next.1 = some ((FrameCompressor.compressFrame s.compressor chunk ByteArray.empty).1.map
            fun _ => (FrameCompressor.compressFrame s.compressor chunk ByteArray.empty).2.2) := by
  unfold chunk? next
  by_cases hdone : s.done = true
  · rw [if_pos hdone, if_pos hdone]
    exact Or.inl ⟨rfl, rfl, fun _ hitem => by cases hitem⟩
  · rw [if_neg hdone, if_neg hdone]
    rcases s.reader.fill s.chunkSize ByteArray.empty with ⟨text | chunk, reader⟩
    · exact Or.inl ⟨rfl, rfl, fun _ hitem => by cases hitem⟩
    · by_cases hempty : chunk.isEmpty = true
      · dsimp only
        rw [if_pos hempty, if_pos hempty]
        exact Or.inl ⟨rfl, rfl, fun _ hitem => by cases hitem⟩
      · dsimp only
        rw [if_neg hempty, if_neg hempty]
        refine Or.inr ⟨chunk, rfl, ?_⟩
        rcases FrameCompressor.compressFrame s.compressor chunk ByteArray.empty with ⟨e | ⟨⟩, c, frame⟩ <;>
          exact ⟨rfl, rfl⟩

end Asking

/-- A stream starts with the compressor that it is given. -/
theorem compressor_of_start {reader : Reader} {chunkSize : Nat} {c : Compressor}
    {s : ChunkStream Compressor} (h : start reader chunkSize c = .ok s) : s.compressor = c := by
  unfold start at h
  split at h
  · cases h
  · cases h
    rfl

/-- **The frames that a stream yields are those that its calls have written**, in order. -/
theorem frames_eq (s : ChunkStream Compressor) (items : Nat) :
    s.frames items = (s.attempts items).filterMap compressing.output? := by
  induction items generalizing s with
  | zero => rfl
  | succ items ih =>
      rw [frames, attempts, List.filterMap_append, ← ih s.next.2, attempt?]
      rcases s.next_cases with ⟨hchunk, -, hnone⟩ | ⟨chunk, hchunk, -, hitem⟩
      · rw [hchunk]
        split
        · rename_i frame hframe
          exact absurd hframe (hnone frame)
        · rfl
      · have hresult : compressing.result ⟨s.compressor, chunk, ByteArray.empty⟩
            = s.compressor.compressFrame chunk ByteArray.empty := rfl
        rw [compressFrame_session] at hitem
        rw [hchunk, hitem, Option.map_some, Option.toList_some, List.filterMap_cons,
          SessionKind.output?, hresult]
        rcases s.compressor.compressFrame chunk ByteArray.empty with ⟨e | ⟨⟩, c, out⟩ <;> rfl

/-- **A stream treats its compressor as its single-frame calls do.** -/
theorem chain_attempts (s : ChunkStream Compressor) (items : Nat) :
    compressing.Chain s.compressor (s.attempts items) (s.asked items).compressor := by
  induction items generalizing s with
  | zero => exact .nil _
  | succ items ih =>
      have hrest := ih s.next.2
      show compressing.Chain _ (s.attempt?.toList ++ s.next.2.attempts items)
        (s.next.2.asked items).compressor
      unfold attempt?
      rcases s.next_cases with ⟨hchunk, hkept, -⟩ | ⟨chunk, hchunk, hcalled, -⟩
      · rw [hkept] at hrest
        rw [hchunk]
        exact hrest
      · rw [hcalled] at hrest
        rw [hchunk]
        exact .cons ⟨s.compressor, chunk, ByteArray.empty⟩ hrest

end ChunkStream

namespace Compressor

/-- What is asked of a compressor. -/
inductive Call where
  /-- A frame of some content, behind some output. -/
  | frame (content out : ByteArray)
  /-- A stream over a reader, which is asked for a number of items. -/
  | stream (reader : Reader) (chunkSize items : Nat)

/-- The single-frame calls that a call makes. -/
def attempts (c : Compressor) (call : Call) : List (Attempt Compressor) :=
  match call with
  | .frame content out => [⟨c, content, out⟩]
  | .stream reader chunkSize items =>
    match ChunkStream.start reader chunkSize c with
    | .error _ => []
    | .ok s => s.attempts items

/-- A compressor after a call. -/
def called (c : Compressor) (call : Call) : Compressor :=
  match call with
  | .frame content out => (c.compressFrame content out).2.1
  | .stream reader chunkSize items =>
    match ChunkStream.start reader chunkSize c with
    | .error _ => c
    | .ok s => (s.asked items).compressor

/-- A compressor after some calls, in order. -/
def ran (c : Compressor) (calls : List Call) : Compressor := calls.foldl called c

/-- The single-frame calls that some calls make, in order. -/
def log (c : Compressor) : List Call → List (Attempt Compressor)
  | [] => []
  | call :: calls => c.attempts call ++ (c.called call).log calls

theorem chain_called (c : Compressor) (call : Call) :
    compressing.Chain c (c.attempts call) (c.called call) := by
  cases call with
  | frame content out => exact .cons ⟨c, content, out⟩ (.nil _)
  | stream reader chunkSize items =>
      unfold attempts called
      dsimp only
      cases hstart : ChunkStream.start reader chunkSize c with
      | error _ => exact .nil c
      | ok s =>
          have hstream := s.chain_attempts items
          rwa [ChunkStream.compressor_of_start hstart] at hstream

/-- **A run of a compressor is a chain of single-frame calls.** -/
theorem chain_log (c : Compressor) (calls : List Call) :
    compressing.Chain c (c.log calls) (c.ran calls) := by
  induction calls generalizing c with
  | nil => exact .nil c
  | cons call calls ih => exact (c.chain_called call).append (ih (c.called call))

end Compressor

/-! ### Decompressors -/

/-- Decompressors as a kind of session. -/
def decompressing : SessionKind Decompressor Fault where
  pending := Decompressor.hasPendingPrefix
  bare d := ⟨d.config, none⟩
  produce := Decompressor.decode
  frame := Decompressor.decompressFrame
  pending_bare _ := rfl
  frame_of_ok h out := by
    rw [Decompressor.decompressFrame, h]
    rfl
  frame_of_error h out := by rw [Decompressor.decompressFrame, h]

namespace Decompressor

/-- The single-frame calls of a run over the frames from `start` on. -/
def attemptsFrom (d : Decompressor) (input : ByteArray) (start : Nat) (out : ByteArray) :
    List (Attempt Decompressor) :=
  if start < input.size then
    match _hsize : frameSize input start input.size with
    | .error _ => []
    | .ok size =>
      let frame := input.extract start (start + size)
      match d.decompressFrame frame out with
      | (.error _, _, _) => [⟨d, frame, out⟩]
      | (.ok (), d', out') => ⟨d, frame, out⟩ :: attemptsFrom d' input (start + size) out'
  else []
termination_by input.size - start
decreasing_by
  have := pos_of_frameSize _hsize
  omega

section DecompressFrom

variable (d : Decompressor) {input : ByteArray} {start : Nat} (out : ByteArray)

theorem decompressFrom_of_le (hdone : ¬start < input.size) :
    d.decompressFrom input start out = (.ok out, d) := by
  rw [decompressFrom, if_neg hdone]

/-- A run ends where no frame is found. -/
theorem decompressFrom_of_error (hmore : start < input.size) {e : CodecError}
    (hsize : frameSize input start input.size = .error e) :
    d.decompressFrom input start out = (.error (.error (.ofCodec "find frame boundary" e)), d) := by
  rw [decompressFrom, if_pos hmore]
  split
  · rename_i e' herror
    rw [hsize] at herror
    cases herror
    rfl
  · rename_i size hok
    rw [hsize] at hok
    cases hok

/-- A frame that is found is decompressed, and the run goes on if that succeeds. -/
theorem decompressFrom_of_ok (hmore : start < input.size) {size : Nat}
    (hsize : frameSize input start input.size = .ok size) :
    d.decompressFrom input start out
      = match d.decompressFrame (input.extract start (start + size)) out with
        | (.error e, d, _) => (.error e, d)
        | (.ok (), d, out) => d.decompressFrom input (start + size) out := by
  rw [decompressFrom, if_pos hmore]
  split
  · rename_i e herror
    rw [hsize] at herror
    cases herror
  · rename_i size' hok
    rw [hsize] at hok
    cases hok
    rfl

end DecompressFrom

/-- **A run over concatenated frames treats its session as its single-frame calls do**, also if it
ends early. -/
theorem chain_attemptsFrom (d : Decompressor) (input : ByteArray) (start : Nat) (out : ByteArray) :
    decompressing.Chain d (d.attemptsFrom input start out) (d.decompressFrom input start out).2 := by
  fun_induction attemptsFrom d input start out with
  | case1 d start out hmore e hsize =>
      rw [d.decompressFrom_of_error out hmore hsize]
      exact .nil d
  | case2 d start out hmore size hsize frame e d' out' hframe =>
      have hend : (d.decompressFrom input start out).2 = d' := by
        rw [d.decompressFrom_of_ok out hmore hsize, hframe]
      have hleft : (decompressing.result ⟨d, frame, out⟩).2.1 = d' :=
        congrArg (fun result => result.2.1) hframe
      rw [hend, ← hleft]
      exact .cons ⟨d, frame, out⟩ (.nil _)
  | case3 d start out hmore size hsize frame d' out' hframe ih =>
      have hrest : d.decompressFrom input start out
          = d'.decompressFrom input (start + size) out' := by
        rw [d.decompressFrom_of_ok out hmore hsize, hframe]
      have hleft : (decompressing.result ⟨d, frame, out⟩).2.1 = d' :=
        congrArg (fun result => result.2.1) hframe
      rw [hrest]
      exact .cons ⟨d, frame, out⟩ (hleft ▸ ih)
  | case4 d start out hdone =>
      rw [d.decompressFrom_of_le out hdone]
      exact .nil d

/-- **What a run yields is what its calls have produced**, and then all of them have succeeded. -/
theorem eq_of_decompressFrom_eq_ok {d : Decompressor} {input : ByteArray} {start : Nat}
    {out bytes : ByteArray} (h : (d.decompressFrom input start out).1 = .ok bytes) :
    (∀ a ∈ d.attemptsFrom input start out, decompressing.succeeds a = true)
      ∧ bytes = (d.attemptsFrom input start out).foldl
          (fun _ a => (decompressing.result a).2.2) out := by
  fun_induction attemptsFrom d input start out with
  | case1 d start out hmore e hsize =>
      rw [d.decompressFrom_of_error out hmore hsize] at h
      cases h
  | case2 d start out hmore size hsize frame e d' out' hframe =>
      rw [d.decompressFrom_of_ok out hmore hsize, hframe] at h
      cases h
  | case3 d start out hmore size hsize frame d' out' hframe ih =>
      rw [d.decompressFrom_of_ok out hmore hsize, hframe] at h
      obtain ⟨hsucceed, hbytes⟩ := ih h
      have hresult : decompressing.result ⟨d, frame, out⟩ = (.ok (), d', out') := hframe
      refine ⟨?_, ?_⟩
      · intro a ha
        rcases List.mem_cons.mp ha with rfl | ha
        · rw [SessionKind.succeeds, hresult]
          rfl
        · exact hsucceed a ha
      · rw [List.foldl_cons, hresult]
        exact hbytes
  | case4 d start out hdone =>
      rw [d.decompressFrom_of_le out hdone] at h
      refine ⟨?_, (Except.ok.inj h).symm⟩
      intro a ha
      cases ha

/-- What is asked of a decompressor. -/
inductive Call where
  /-- The content of one frame, behind some output. -/
  | frame (input out : ByteArray)
  /-- The content of concatenated frames. -/
  | frames (input : ByteArray)

/-- The single-frame calls that a call makes. -/
def attempts (d : Decompressor) (call : Call) : List (Attempt Decompressor) :=
  match call with
  | .frame input out => [⟨d, input, out⟩]
  | .frames input => d.attemptsFrom input 0 ByteArray.empty

/-- A decompressor after a call. -/
def called (d : Decompressor) (call : Call) : Decompressor :=
  match call with
  | .frame input out => (d.decompressFrame input out).2.1
  | .frames input => (d.decompressFrames input).2

/-- A decompressor after some calls, in order. -/
def ran (d : Decompressor) (calls : List Call) : Decompressor := calls.foldl called d

/-- The single-frame calls that some calls make, in order. -/
def log (d : Decompressor) : List Call → List (Attempt Decompressor)
  | [] => []
  | call :: calls => d.attempts call ++ (d.called call).log calls

theorem chain_called (d : Decompressor) (call : Call) :
    decompressing.Chain d (d.attempts call) (d.called call) := by
  cases call with
  | frame input out => exact .cons ⟨d, input, out⟩ (.nil _)
  | frames input => exact d.chain_attemptsFrom input 0 ByteArray.empty

/-- **A run of a decompressor is a chain of single-frame calls.** -/
theorem chain_log (d : Decompressor) (calls : List Call) :
    decompressing.Chain d (d.log calls) (d.ran calls) := by
  induction calls generalizing d with
  | nil => exact .nil d
  | cons call calls ih => exact (d.chain_called call).append (ih (d.called call))

end Decompressor

end SharedDictionary
