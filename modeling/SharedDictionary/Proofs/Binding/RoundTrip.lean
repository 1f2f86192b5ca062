import SharedDictionary.Proofs.Binding.DictionaryArgument
import SharedDictionary.Proofs.Session.Concatenation

/-!
# What a script gets back

A script compresses byte strings one by one, puts the frames behind each other and decompresses them in one
call.  Every call to compress is a session of its own, and its dictionary is the same however often views were
taken of it; so each frame is one that the session of the last call can read (`ScriptStore.Compresses`,
`ScriptStore.Decompresses`).

Frames declare the sizes of their contents, and a script cannot raise the limit of a session.  So a byte
string above the limit is compressed and refused when it is to come back (`Agree.decode_refused`); all others
come back.  The main result is `ScriptStore.decompress_compressEach`.
-/

namespace SharedDictionary

/-! ### Frames above the limit -/

/-- What is said of a frame that declares more content than a session may read. -/
def DictError.oversized (limit size : Nat) : DictError :=
  .codec "decompress"
    ("frame content size " ++ toString size ++ " exceeds limit " ++ toString limit)

variable {c : Compressor} {d : Decompressor}

/-- **A frame above the limit is written and refused.** -/
theorem Agree.decode_refused (h : Agree c d) (data : ByteArray)
    (hdata : data.size ≤ Decompressor.maxCapacity) (hlimit : d.config.frameLimit < data.size) :
    ∃ frame, c.encode data = .ok frame ∧ Decompressor.isWholeFrame frame = true
      ∧ d.decode frame = .error (.error (.oversized d.config.frameLimit data.size)) := by
  obtain ⟨dict, given, hdict, -, hcompatible⟩ := h.dictionaries
  have hvalid := hcompatible.validFrame c.config.usesChecksum hdata
  refine ⟨encodeFrame dict c.config.usesChecksum data, ?_, ?_, ?_⟩
  · rw [Compressor.encode, hdict]
    rfl
  · exact Decompressor.isWholeFrame_iff.mpr hvalid.frameSize_eq
  · exact Decompressor.decode_of_valid_declared hvalid hdata (by simp) hlimit

/-- What a frame of some content is decoded to under a limit. -/
def Decompressor.contentOrRefusal (limit : Nat) (data : ByteArray) : Except Fault ByteArray :=
  if limit < data.size then .error (.error (.oversized limit data.size)) else .ok data

/-- **Sessions that agree exchange a frame, or the limit is in the way.** -/
theorem Agree.exchange (h : Agree c d) (data : ByteArray)
    (hdata : data.size ≤ Decompressor.maxCapacity) :
    ∃ frame, c.encode data = .ok frame ∧ Decompressor.isWholeFrame frame = true
      ∧ d.decode frame = Decompressor.contentOrRefusal d.config.frameLimit data := by
  by_cases hlimit : d.config.frameLimit < data.size
  · rw [Decompressor.contentOrRefusal, if_pos hlimit]
    exact h.decode_refused data hdata hlimit
  · obtain ⟨frame, hencode, hdecode, hfound⟩ := h.decode_encode data hdata (Nat.not_lt.mp hlimit)
    refine ⟨frame, hencode, ?_, ?_⟩
    · rw [Decompressor.isWholeFrame_iff]
      exact hfound frame 0 (standsAt_self frame)
    · rw [Decompressor.contentOrRefusal, if_neg hlimit]
      exact hdecode

theorem DictError.message_codec (operation text : String) :
    DictError.message (.codec operation text) = "zstd " ++ operation ++ " failed: " ++ text :=
  rfl

theorem DictError.message_oversized (limit size : Nat) :
    DictError.message (.oversized limit size)
      = "zstd decompress failed: frame content size " ++ toString size
        ++ " exceeds limit " ++ toString limit := by
  have hopening : "zstd " ++ "decompress" ++ " failed: " ++ "frame content size "
      = "zstd decompress failed: frame content size " := by decide +kernel
  rw [DictError.oversized, DictError.message_codec, ← hopening]
  simp only [String.append_assoc]

theorem SessionConfig.toString_defaultMaxFrameSize :
    toString SessionConfig.defaultMaxFrameSize = "33554432" := by
  rw [show SessionConfig.defaultMaxFrameSize = 33554432 from rfl]
  decide +kernel

/-- What a call raises for a frame above its limit. -/
theorem Raised.ofError_oversized (size : Nat) :
    Raised.ofError (.oversized SessionConfig.defaultMaxFrameSize size)
      = ⟨.codec, "zstd decompress failed: frame content size " ++ toString size
          ++ " exceeds limit 33554432"⟩ := by
  have hclosing : " exceeds limit " ++ "33554432" = " exceeds limit 33554432" := by decide +kernel
  have hmessage := DictError.message_oversized SessionConfig.defaultMaxFrameSize size
  rw [SessionConfig.toString_defaultMaxFrameSize, String.append_assoc, hclosing] at hmessage
  exact congrArg (Raised.mk .codec) hmessage

namespace Decompressor

/-- What frames of some contents come to under a limit: all of the contents, or the refusal of the first
that is above it. -/
def contentsOrRefusal (limit : Nat) (contents : List ByteArray) : Except Fault ByteArray :=
  match contents.find? (limit < ·.size) with
  | none => .ok (joined contents)
  | some data => .error (.error (.oversized limit data.size))

/-- Where the first byte string passes, the limit decides on the others. -/
theorem contentsOrRefusal_cons {limit : Nat} {data : ByteArray} (hdata : ¬limit < data.size)
    (contents : List ByteArray) :
    contentsOrRefusal limit (data :: contents) = (contentsOrRefusal limit contents).map (data ++ ·) := by
  have hfind : (data :: contents).find? (limit < ·.size) = contents.find? (limit < ·.size) :=
    List.find?_cons_of_neg fun hlt => hdata (of_decide_eq_true hlt)
  rw [contentsOrRefusal, contentsOrRefusal, hfind]
  cases contents.find? (limit < ·.size) <;> rfl

/-- A byte string above the limit is refused, whatever follows. -/
theorem contentsOrRefusal_cons_of_lt {limit : Nat} {data : ByteArray} (hdata : limit < data.size)
    (contents : List ByteArray) :
    contentsOrRefusal limit (data :: contents) = .error (.error (.oversized limit data.size)) := by
  have hfind : (data :: contents).find? (limit < ·.size) = some data :=
    List.find?_cons_of_pos (decide_eq_true hdata)
  rw [contentsOrRefusal, hfind]

/-- Single-frame calls on frames, each of which the session decodes as the limit lets it.  A session that
does not stay as it is reads one frame at most. -/
theorem decompressEach_contentsOrRefusal {frames contents : List ByteArray}
    (hframes : List.Forall₂ (fun frame data =>
      d.decode frame = contentOrRefusal d.config.frameLimit data) frames contents)
    (hkeeps : d.afterFrame = d ∨ contents.length ≤ 1) (out : ByteArray) :
    (∃ content d', contentsOrRefusal d.config.frameLimit contents = .ok content
        ∧ d.decompressEach frames out = (.ok (), d', out ++ content))
      ∨ ∃ e d' out', contentsOrRefusal d.config.frameLimit contents = .error e
        ∧ d.decompressEach frames out = (.error e, d', out') := by
  induction hframes generalizing out with
  | nil =>
      refine .inl ⟨ByteArray.empty, d, rfl, ?_⟩
      rw [ByteArray.append_empty]
      rfl
  | @cons frame data frames contents hdecode hrest ih =>
      by_cases hlimit : d.config.frameLimit < data.size
      · rw [contentOrRefusal, if_pos hlimit] at hdecode
        refine .inr ⟨_, d, out, contentsOrRefusal_cons_of_lt hlimit contents, ?_⟩
        rw [decompressEach, decompressFrame_of_error hdecode]
      · rw [contentOrRefusal, if_neg hlimit] at hdecode
        rw [contentsOrRefusal_cons hlimit, decompressEach, decompressFrame_of_ok hdecode]
        dsimp only
        rcases hkeeps with hkeeps | hsingle
        · rw [hkeeps]
          rcases ih (.inl hkeeps) (out ++ data) with ⟨content, d', hcontent, heach⟩
            | ⟨e, d', out', herror, heach⟩
          · refine .inl ⟨data ++ content, d', ?_, ?_⟩
            · rw [hcontent]
              rfl
            · rw [heach, ByteArray.append_assoc]
          · refine .inr ⟨e, d', out', ?_, heach⟩
            rw [herror]
            rfl
        · obtain rfl : contents = [] := List.eq_nil_of_length_eq_zero (by
            rw [List.length_cons] at hsingle
            omega)
          cases hrest
          refine .inl ⟨data, d.afterFrame, ?_, rfl⟩
          exact congrArg Except.ok ByteArray.append_empty

/-- **A run over whole frames reads all their contents, or refuses the first above the limit.** -/
theorem decompressFrames_contentsOrRefusal {frames contents : List ByteArray}
    (hwhole : ∀ frame ∈ frames, isWholeFrame frame = true)
    (hframes : List.Forall₂ (fun frame data =>
      d.decode frame = contentOrRefusal d.config.frameLimit data) frames contents)
    (hkeeps : d.afterFrame = d ∨ contents.length ≤ 1) :
    (d.decompressFrames (joined frames)).1 = contentsOrRefusal d.config.frameLimit contents := by
  have hrun := decompressFrames_append d hwhole ByteArray.empty
  rw [ByteArray.append_empty] at hrun
  rw [hrun]
  rcases decompressEach_contentsOrRefusal hframes hkeeps ByteArray.empty with
    ⟨content, d', hcontent, heach⟩ | ⟨e, d', out', herror, heach⟩
  · have hnothing : d'.decompressFrames ByteArray.empty = (.ok ByteArray.empty, d') :=
      d'.decompressFrom_of_le _ (Nat.lt_irrefl 0)
    rw [heach, hcontent]
    dsimp only
    rw [hnothing, ByteArray.empty_append]
    exact congrArg Except.ok ByteArray.append_empty
  · rw [heach, herror]

end Decompressor

/-! ### Calls of a script -/

/-- A byte string as an argument. -/
def ScriptValue.ofBytes (content : ByteArray) : ScriptValue :=
  .buffer "bytes" true (!content.isEmpty) content

/-- How a script hands a dictionary to a call. -/
inductive Handing where
  /-- There is none. -/
  | absent
  /-- The dictionary itself. -/
  | bare
  /-- A pair of the dictionary and the tag of a mode, as its attributes are. -/
  | withMode (mode : DictMode)
  deriving Repr, DecidableEq

namespace Handing

/-- The argument for the dictionary of a name. -/
def argument (name : String) : Handing → ScriptValue
  | absent => .absent
  | bare => .dict name
  | withMode mode => .tuple [.dict name, .int mode.tag]

/-- The mode in which a call loads the dictionary that it is handed. -/
def mode? (standard : DictMode) : Handing → Option DictMode
  | absent => none
  | bare => some standard
  | withMode mode => some mode

variable {handing : Handing} {standard mode : DictMode}

/-- A dictionary that is handed over is designated, in the mode of the handing. -/
theorem designates_argument (h : handing.mode? standard = some mode) (name : String) :
    (handing.argument name).Designates standard name mode := by
  cases handing with
  | absent => cases h
  | bare =>
      cases h
      exact .bare name
  | withMode given =>
      cases h
      exact .pair name mode rfl

/-- A dictionary that is handed over is not the absent value. -/
theorem argument_ne_absent (h : handing.mode? standard = some mode) (name : String) :
    handing.argument name ≠ .absent := by
  cases handing with
  | absent => cases h
  | bare => exact nofun
  | withMode given => exact nofun

end Handing

/-- The attributes of a dictionary are pairs of itself and a mode. -/
theorem ScriptStore.attributeArgument_eq {store : ScriptStore} {name : String} {w : SharedDict}
    (hlookup : store.lookup name = some w) :
    store.attributeArgument name "as_digested_dict" = .ok ((Handing.withMode .digested).argument name)
      ∧ store.attributeArgument name "as_undigested_dict"
        = .ok ((Handing.withMode .undigested).argument name)
      ∧ store.attributeArgument name "as_prefix" = .ok ((Handing.withMode .prefixed).argument name) := by
  simp only [attributeArgument, attributeOf, find, hlookup, readAttribute?]
  exact ⟨rfl, rfl, rfl⟩

namespace ScriptStore

/-- Compresses byte strings one after the other, each by a call of its own, up to the first that fails. -/
def compressEach (store : ScriptStore) (level : Int32) (dict : ScriptValue) :
    (contents : List ByteArray) → Except Raised (List ByteArray) × ScriptStore
  | [] => (.ok [], store)
  | data :: contents =>
    match store.compress [.ofBytes data, .int level.toInt, dict] [] with
    | (.error e, store) => (.error e, store)
    | (.ok frame, store) =>
      match store.compressEach level dict contents with
      | (.error e, store) => (.error e, store)
      | (.ok frames, store) => (.ok (frame :: frames), store)

/-- A script has a dictionary of some content under a name, whatever was asked of it. -/
def Has (store : ScriptStore) (name : String) (content : ByteArray) (isRaw : Bool) : Prop :=
  ∃ w, store.lookup name = some w ∧ SharedDict.Reached content isRaw w

/-- What is put under a name is found there. -/
theorem lookup_put (store : ScriptStore) (name : String) (w : SharedDict) :
    (store.put name w).lookup name = some w := by
  rw [put, List.lookup_cons, beq_self_eq_true]

/-- A level is a number that every call takes for itself. -/
theorem level_int (level : Int32) : ScriptValue.level (.int level.toInt) = .ok level := by
  have hlow := level.le_toInt
  have hhigh := level.toInt_lt
  simp only [ScriptValue.level, ScriptValue.whole?]
  rw [if_neg (by omega), if_neg (by omega), if_neg (by omega), Int32.ofInt_toInt]

/-! ### The sessions of calls -/

/-- The arguments of a call to compress. -/
def compressing (data : ByteArray) (level : Int32) (dict : ScriptValue) :
    List (String × ScriptValue) :=
  [("data", .ofBytes data), ("level", .int level.toInt), ("zstd_dict", dict)]

/-- The arguments of a call to decompress. -/
def decompressing (data : ByteArray) (dict : ScriptValue) : List (String × ScriptValue) :=
  [("data", .ofBytes data), ("zstd_dict", dict)]

/-- **A call to compress is a session of its own**, with the view that its argument gives. -/
theorem compress_eq {store store' : ScriptStore} {level : Int32} {dict : ScriptValue}
    {given : Option (DictView CompressionDigest)} {c : Compressor} {data frame : ByteArray}
    (hview : store.viewArgument (compressing data level dict) .undigested
      (fun mode w => view codecEngine codecDepth mode level w) = (.ok given, store'))
    (hnew : Compressor.new (.withLevel level) given = .ok c) (hencode : c.encode data = .ok frame) :
    store.compress [.ofBytes data, .int level.toInt, dict] [] = (.ok frame, store') := by
  have hbind : Signature.compress.bind [.ofBytes data, .int level.toInt, dict] []
      = .ok (compressing data level dict) := rfl
  have harguments : compressArguments (compressing data level dict) = .ok (level, data) := by
    show (do
      let level ← ScriptValue.level (.int level.toInt)
      return (level, data)) = _
    rw [level_int]
    rfl
  simp only [compress_eq_session hbind, harguments, compressBytes, hview, hnew, Except.bind, hencode]
  rfl

/-- **A call to decompress is a session of its own**, with the view that its argument gives. -/
theorem decompress_eq {store store' : ScriptStore} {dict : ScriptValue}
    {given : Option (DictView DecompressionDigest)} (input : ByteArray)
    (hview : store.viewArgument (decompressing input dict) .digested
      (fun mode w => viewForDecompression codecEngine codecDepth mode w) = (.ok given, store')) :
    (store.decompress [.ofBytes input, dict] []).1
      = (Decompressor.decompressFrames ⟨.standard, given⟩ input).1.mapError Raised.ofFault := by
  have hbind : Signature.decompress.bind [.ofBytes input, dict] []
      = .ok (decompressing input dict) := rfl
  have hbytes : (((decompressing input dict).lookup "data").getD .absent).bytes = .ok input := rfl
  simp only [decompress_eq_session hbind, hbytes, decompressBytes, hview]

/-- **The view of a dictionary that is handed over**, and the dictionary as it is after it. -/
theorem viewArgument_eq {α : Type} {store : ScriptStore} {name : String} {w : SharedDict}
    (hlookup : store.lookup name = some w) {handing : Handing} {standard mode : DictMode}
    (hmode : handing.mode? standard = some mode) {bound : List (String × ScriptValue)}
    (hbound : bound.lookup "zstd_dict" = some (handing.argument name))
    {take : DictMode → SharedDict → Except Fault (DictView (Built α)) × SharedDict}
    {v : DictView α} (hview : (take mode w).1.map DictView.unstamped = .ok v) :
    store.viewArgument bound standard take = (.ok (some v), store.put name (take mode w).2) := by
  rw [viewArgument_loaded hbound (Handing.argument_ne_absent hmode name)
    (Handing.designates_argument hmode name) hlookup]
  rcases htake : take mode w with ⟨e | found, w'⟩
  · rw [htake] at hview
    cases hview
  · rw [htake] at hview
    cases hview
    rfl

/-- Calls with an argument compress as one session does, wherever a script keeps to what it has. -/
structure Compresses (keeps : ScriptStore → Prop) (level : Int32) (dict : ScriptValue)
    (c : Compressor) : Prop where
  call : ∀ store, keeps store → ∃ store', keeps store' ∧ ∀ data frame, c.encode data = .ok frame →
    store.compress [.ofBytes data, .int level.toInt, dict] [] = (.ok frame, store')

/-- Calls with an argument decompress as one session does, wherever a script keeps to what it has. -/
structure Decompresses (keeps : ScriptStore → Prop) (dict : ScriptValue) (d : Decompressor) :
    Prop where
  call : ∀ store, keeps store → ∀ input, (store.decompress [.ofBytes input, dict] []).1
    = (d.decompressFrames input).1.mapError Raised.ofFault

theorem compresses_absent (level : Int32) :
    Compresses (fun _ => True) level .absent ⟨.withLevel level, none⟩ :=
  ⟨fun store _ => ⟨store, trivial, fun _ _ hencode => compress_eq rfl rfl hencode⟩⟩

theorem decompresses_absent : Decompresses (fun _ => True) .absent ⟨.standard, none⟩ :=
  ⟨fun _ _ input => decompress_eq input rfl⟩

section Handed

variable {name : String} {content : ByteArray} {isRaw : Bool} {handing : Handing} {mode : DictMode}

/-- **A dictionary serves every call alike**, and stays a dictionary of its content. -/
theorem compresses_handed (hmode : handing.mode? .undigested = some mode) (level : Int32)
    {v : DictView CompressionDigest} (hview : viewOutcome content isRaw level mode = .ok v) :
    Compresses (·.Has name content isRaw) level (handing.argument name)
      ⟨.withLevel level, some v⟩ := by
  refine ⟨fun store ⟨w, hlookup, hw⟩ => ?_⟩
  have hfound : (view codecEngine codecDepth mode level w).1.map DictView.unstamped = .ok v := by
    refine (hw.faithful.view_eq 0 mode level).trans ?_
    rw [hw.sameContent.1, hw.sameContent.2, hview]
    rfl
  refine ⟨store.put name (view codecEngine codecDepth mode level w).2,
    ⟨_, lookup_put _ _ _, ?_⟩, fun data frame hencode => ?_⟩
  · rw [world_view]
    cases mode with
    | digested => exact hw.served (.digested level)
    | undigested => exact hw.served .undigested
    | prefixed => exact hw.prefixTaken
  · refine compress_eq (viewArgument_eq hlookup hmode rfl hfound) ?_ hencode
    rfl

theorem decompresses_handed (hmode : handing.mode? .digested = some mode)
    {v : DictView DecompressionDigest} (hview : decompressionViewOutcome content isRaw mode = .ok v) :
    Decompresses (·.Has name content isRaw) (handing.argument name) ⟨.standard, some v⟩ := by
  refine ⟨fun store ⟨w, hlookup, hw⟩ input => ?_⟩
  have hfound : (viewForDecompression codecEngine codecDepth mode w).1.map DictView.unstamped
      = .ok v := by
    refine (hw.faithful.viewForDecompression_eq 0 mode).trans ?_
    rw [hw.sameContent.1, hw.sameContent.2, hview]
    rfl
  exact decompress_eq input (viewArgument_eq hlookup hmode rfl hfound)

end Handed

/-- Calls one after the other write the frames that one session would. -/
theorem Compresses.compressEach_eq {keeps : ScriptStore → Prop} {level : Int32} {dict : ScriptValue}
    {c : Compressor} (h : Compresses keeps level dict c) {contents frames : List ByteArray}
    (hframes : List.Forall₂ (fun data frame => c.encode data = .ok frame) contents frames)
    {store : ScriptStore} (hstore : keeps store) :
    ∃ store', keeps store' ∧ store.compressEach level dict contents = (.ok frames, store') := by
  induction hframes generalizing store with
  | nil => exact ⟨store, hstore, rfl⟩
  | @cons data frame contents frames hencode _ ih =>
      obtain ⟨next, hnext, hcall⟩ := h.call store hstore
      obtain ⟨store', hstore', heach⟩ := ih hnext
      refine ⟨store', hstore', ?_⟩
      rw [compressEach, hcall data frame hencode]
      dsimp only
      rw [heach]

/-- **Calls whose sessions agree give back what the limit lets through.** -/
theorem Compresses.returns {keeps : ScriptStore → Prop} {level : Int32}
    {dict dict' : ScriptValue} {c : Compressor} {d : Decompressor}
    (h : Compresses keeps level dict c) (h' : Decompresses keeps dict' d) (hagree : Agree c d)
    {contents : List ByteArray} (hsize : ∀ data ∈ contents, data.size ≤ Decompressor.maxCapacity)
    (hkeeps : d.afterFrame = d ∨ contents.length ≤ 1) (store : ScriptStore) (hstore : keeps store) :
    ∃ frames store', store.compressEach level dict contents = (.ok frames, store')
      ∧ (store'.decompress [.ofBytes (joined frames), dict'] []).1
        = (Decompressor.contentsOrRefusal d.config.frameLimit contents).mapError Raised.ofFault := by
  have hexchange : ∃ frames, List.Forall₂ (fun data frame => c.encode data = .ok frame) contents frames
      ∧ List.Forall₂ (fun frame data =>
        d.decode frame = Decompressor.contentOrRefusal d.config.frameLimit data) frames contents
      ∧ ∀ frame ∈ frames, Decompressor.isWholeFrame frame = true := by
    clear hkeeps
    induction contents with
    | nil => exact ⟨[], .nil, .nil, nofun⟩
    | cons data contents ih =>
        obtain ⟨frame, hencode, hwhole, hdecode⟩ :=
          hagree.exchange data (hsize data List.mem_cons_self)
        obtain ⟨frames, hencodes, hdecodes, hwholes⟩ :=
          ih fun other hmem => hsize other (List.mem_cons_of_mem _ hmem)
        refine ⟨frame :: frames, .cons hencode hencodes, .cons hdecode hdecodes, ?_⟩
        exact List.forall_mem_cons.mpr ⟨hwhole, hwholes⟩
  obtain ⟨frames, hencodes, hdecodes, hwholes⟩ := hexchange
  obtain ⟨store', hstore', heach⟩ := h.compressEach_eq hencodes hstore
  refine ⟨frames, store', heach, ?_⟩
  rw [h'.call store' hstore',
    Decompressor.decompressFrames_contentsOrRefusal hwholes hdecodes hkeeps]

/-! ### Dictionaries that belong together -/

/-- Views of one dictionary in modes that belong together give sessions that agree.  One that is no prefix
serves every frame. -/
theorem exists_agree (content : ByteArray) (isRaw : Bool) (level : Int32) {mode mode' : DictMode}
    (hmodes : mode = .prefixed ∧ mode' = .prefixed
      ∨ mode ≠ .prefixed ∧ mode' ≠ .prefixed ∧ Usable content isRaw) :
    ∃ v v', viewOutcome content isRaw level mode = .ok v
      ∧ decompressionViewOutcome content isRaw mode' = .ok v'
      ∧ Agree ⟨.withLevel level, some v⟩ ⟨.standard, some v'⟩
      ∧ (mode ≠ .prefixed →
        Decompressor.afterFrame ⟨.standard, some v'⟩ = ⟨.standard, some v'⟩) := by
  have hnew : SharedDict.Reached content isRaw (.new content isRaw) := .new
  have hsound : (Pairing.views (.new content isRaw) mode level (.new content isRaw) mode').Sound
      (.withLevel level) := by
    refine ⟨content, isRaw, isRaw, hnew, hnew, hmodes.imp id ?_⟩
    exact fun ⟨hmode, hmode', husable⟩ => ⟨hmode, hmode', husable, husable, rfl⟩
  obtain ⟨c, d, hc, hd, -, hpending, hagree⟩ := hsound.agree .standard
  have hview : (view codecEngine codecDepth mode level (SharedDict.new content isRaw)).1.map
      DictView.unstamped = (viewOutcome content isRaw level mode).mapError .error :=
    hnew.faithful.view_eq 0 mode level
  have hview' : (viewForDecompression codecEngine codecDepth mode'
      (SharedDict.new content isRaw)).1.map DictView.unstamped
        = (decompressionViewOutcome content isRaw mode').mapError .error :=
    hnew.faithful.viewForDecompression_eq 0 mode'
  rw [Pairing.compressor, hview] at hc
  rw [Pairing.decompressor, hview'] at hd
  rcases hv : viewOutcome content isRaw level mode with e | v <;> rw [hv] at hc
  · cases hc
  · rcases hv' : decompressionViewOutcome content isRaw mode' with e | v' <;> rw [hv'] at hd
    · cases hd
    · cases hc
      cases hd
      refine ⟨v, v', rfl, rfl, hagree, fun hmode => ?_⟩
      have hnone : Decompressor.hasPendingPrefix ⟨.standard, some v'⟩ = false := by
        rw [← hagree.pending, hpending]
        exact beq_eq_false_iff_ne.mpr hmode
      exact Decompressor.afterFrame_of_not_pending hnone

/-- How the calls of an exchange are handed their dictionary, so that they belong together. -/
inductive Matched (store : ScriptStore) (name : String) :
    (contents : List ByteArray) → (compressing decompressing : Handing) → Prop
  /-- There is none on either side. -/
  | absent (contents : List ByteArray) : Matched store name contents .absent .absent
  /-- Each side loads a dictionary of content that can serve, in a mode of its own that is no prefix. -/
  | loaded (contents : List ByteArray) {content : ByteArray} {isRaw : Bool}
      {compressing decompressing : Handing} {mode mode' : DictMode}
      (hhas : store.Has name content isRaw) (husable : Usable content isRaw)
      (hcompressing : compressing.mode? .undigested = some mode) (hmode : mode ≠ .prefixed)
      (hdecompressing : decompressing.mode? .digested = some mode') (hmode' : mode' ≠ .prefixed) :
      Matched store name contents compressing decompressing
  /-- Both sides take a prefix for a single frame. -/
  | prefixed (data : ByteArray) {content : ByteArray} {isRaw : Bool}
      (hhas : store.Has name content isRaw) :
      Matched store name [data] (.withMode .prefixed) (.withMode .prefixed)

/-- **A script gets back what it has compressed**, as far as every byte string is within the limit.
However many byte strings there are, and however the dictionary is handed to the calls, every call to
compress writes a frame.  One call decompresses the frames behind each other, to the byte strings behind
each other, unless one of these is above the limit; then the call refuses the first such. -/
theorem decompress_compressEach {store : ScriptStore} {name : String} {contents : List ByteArray}
    {compressing decompressing : Handing}
    (h : store.Matched name contents compressing decompressing) (level : Int32)
    (hsize : ∀ data ∈ contents, data.size ≤ Decompressor.maxCapacity) :
    ∃ frames store',
      store.compressEach level (compressing.argument name) contents = (.ok frames, store')
      ∧ (store'.decompress [.ofBytes (joined frames), decompressing.argument name] []).1
        = match contents.find? (SessionConfig.defaultMaxFrameSize < ·.size) with
          | none => .ok (joined contents)
          | some data => .error ⟨.codec, "zstd decompress failed: frame content size "
              ++ toString data.size ++ " exceeds limit 33554432"⟩ := by
  have hreturns : ∃ frames store',
      store.compressEach level (compressing.argument name) contents = (.ok frames, store')
      ∧ (store'.decompress [.ofBytes (joined frames), decompressing.argument name] []).1
        = (Decompressor.contentsOrRefusal SessionConfig.defaultMaxFrameSize contents).mapError
          Raised.ofFault := by
    cases h with
    | absent =>
        exact (compresses_absent level).returns decompresses_absent (agree_none _ _) hsize (.inl rfl)
          store trivial
    | loaded _ hhas husable hcompressing hmode hdecompressing hmode' =>
        obtain ⟨v, v', hview, hview', hagree, hkeeps⟩ :=
          exists_agree _ _ level (.inr ⟨hmode, hmode', husable⟩)
        exact (compresses_handed hcompressing level hview).returns
          (decompresses_handed hdecompressing hview') hagree hsize (.inl (hkeeps hmode)) store
          hhas
    | @prefixed _ content isRaw hhas =>
        obtain ⟨v, v', hview, hview', hagree, -⟩ :=
          exists_agree content isRaw level (.inl ⟨rfl, rfl⟩)
        exact (compresses_handed rfl level hview).returns (decompresses_handed rfl hview') hagree
          hsize (.inr (Nat.le_refl _)) store hhas
  obtain ⟨frames, store', hframes, hcontents⟩ := hreturns
  refine ⟨frames, store', hframes, hcontents.trans ?_⟩
  rw [Decompressor.contentsOrRefusal]
  cases contents.find? (SessionConfig.defaultMaxFrameSize < ·.size) with
  | none => rfl
  | some data =>
      exact congrArg Except.error (Raised.ofError_oversized data.size)

/-- A new raw dictionary, handed over bare and in a mode, brings back two byte strings. -/
theorem decompress_compressEach_raw :
    Matched [("d", .new ⟨#[1, 2, 3]⟩ true)] "d" [⟨#[3, 4, 5]⟩, ⟨#[]⟩] .bare (.withMode .undigested)
      ∧ ∃ frames store',
        compressEach [("d", .new ⟨#[1, 2, 3]⟩ true)] 3 (.dict "d") [⟨#[3, 4, 5]⟩, ⟨#[]⟩]
          = (.ok frames, store')
        ∧ (decompress store' [.ofBytes (joined frames), .tuple [.dict "d", .int 1]] []).1
          = .ok (joined [⟨#[3, 4, 5]⟩, ⟨#[]⟩]) := by
  have hmatched : Matched [("d", .new ⟨#[1, 2, 3]⟩ true)] "d" [⟨#[3, 4, 5]⟩, ⟨#[]⟩] .bare
      (.withMode .undigested) :=
    .loaded _ ⟨_, rfl, .new⟩ ⟨rfl, by decide⟩ rfl (by decide) rfl (by decide)
  have hsize : ∀ data ∈ [(⟨#[3, 4, 5]⟩ : ByteArray), ⟨#[]⟩],
      data.size ≤ Decompressor.maxCapacity := by decide
  exact ⟨hmatched, decompress_compressEach hmatched 3 hsize⟩

/-- **One byte above 32 MiB does not come back**, although it is compressed. -/
theorem oversized_not_returned :
    ∃ frames store',
      compressEach [] 3 .absent [⟨Array.replicate 33554433 97⟩] = (.ok frames, store')
      ∧ (decompress store' [.ofBytes (joined frames), .absent] []).1
        ≠ .ok (joined [⟨Array.replicate 33554433 97⟩]) := by
  have hsize : (⟨Array.replicate 33554433 97⟩ : ByteArray).size = 33554433 := Array.size_replicate
  have hfits : ∀ data ∈ [(⟨Array.replicate 33554433 97⟩ : ByteArray)],
      data.size ≤ Decompressor.maxCapacity :=
    List.forall_mem_singleton.mpr (by rw [hsize]; decide)
  have hreturns := (compresses_absent 3).returns decompresses_absent (agree_none _ _) hfits (.inl rfl)
    [] trivial
  obtain ⟨frames, store', hframes, hcontents⟩ := hreturns
  refine ⟨frames, store', hframes, ?_⟩
  rw [hcontents, Decompressor.contentsOrRefusal_cons_of_lt]
  · exact nofun
  · rw [hsize]
    decide

end ScriptStore

end SharedDictionary
