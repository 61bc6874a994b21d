import EnigmaP2P.Js.Foreign
import EnigmaP2P.Sync.Verifier

/-!
# Messages of strangers

Whatever bytes a peer sends are decoded, asked for their message type, and verified if they
are a response. The package that decodes is a parameter: it may throw, and it may answer any
value, with a prototype that the peer replaced, binary data, or `undefined` for bytes that end
too early.

The code reads properties of what it decoded without asking whether there is a value to read
from. The main result says exactly which messages are read to the end, and which of those
that pass carry nothing but what the chain records. On plain data the definitions are those
of the synchronisation.
-/

namespace Sync.Untrusted

open Js Common

/-- `EncoderUtil.decode`. -/
def decode (unpack : List UInt8 → Except Exn Foreign) (encodedBuffer : List UInt8) : Foreign :=
  match unpack encodedBuffer with
  | .ok value => value
  | .error _ => .null

/-! ## The builders -/

/-- `SyncStateResMsg` or `SyncBcodeResMsg` around the value received. -/
inductive ResMsg where
  | state (rawMsg : Foreign)
  | bcode (rawMsg : Foreign)

/-- `SyncStateReqMsg` or `SyncBcodeReqMsg` around the value received. -/
inductive ReqMsg where
  | state (rawMsg : Foreign)
  | bcode (rawMsg : Foreign)

/-- `obj.hasOwnProperty("msgType")` and then the message type, if the value has one. -/
def ownMsgType (msgObj : Foreign) : Except Exn (Option Foreign) := do
  if ← msgObj.hasOwnProperty "msgType" then
    let msgType ← msgObj.get "msgType"
    pure (some msgType)
  else pure none

/-- `responseMessageFromNetwork` after the decoding; `none` is `null`. -/
def responseMessageFromNetwork (msgObj : Foreign) : Except Exn (Option ResMsg) := do
  match ← ownMsgType msgObj with
  | none => pure none
  | some msgType =>
      if msgType.is P2PMessages.syncStateRes then pure (some (.state msgObj))
      else if msgType.is P2PMessages.syncBcodeRes then pure (some (.bcode msgObj))
      else pure none

/-- `requestMessageFromNetwork`; the builders set the message type once more. -/
def requestMessageFromNetwork (msgObj : Foreign) : Except Exn (Option ReqMsg) := do
  match ← ownMsgType msgObj with
  | none => pure none
  | some msgType =>
      if msgType.is P2PMessages.syncStateReq then
        let rawMsg ← msgObj.set "msgType" (.str P2PMessages.syncStateReq)
        pure (some (.state rawMsg))
      else if msgType.is P2PMessages.syncBcodeReq then
        let rawMsg ← msgObj.set "msgType" (.str P2PMessages.syncBcodeReq)
        pure (some (.bcode rawMsg))
      else pure none

/-! ## The verifier -/

/-- `this._rawMsg.result[key]`. -/
def resultField (rawMsg : Foreign) (key : String) : Except Exn Foreign := do
  let result ← rawMsg.get "result"
  result.get key

/-- What one iteration reads from a delta. -/
structure DeltaFields where
  address : Foreign
  data : Foreign
  key : Foreign

def deltaFields (delta : Foreign) : Except Exn DeltaFields := do
  let address ← delta.get "address"
  let data ← delta.get "data"
  let key ← delta.get "key"
  pure ⟨address, data, key⟩

variable (textToNumber : String → Number) (keccak256 : List UInt8 → List UInt8)
variable (remoteMissingStates : RemoteMissingStates)

/-- `hash(value)`. -/
def hash (value : Foreign) : Except Exn (Option String) := do
  let buffer ← value.buffer
  pure (sha3With keccak256 buffer)

/-- One iteration over `deltas`: `none` if the delta matches, otherwise the error. -/
def verifyDelta (delta : Foreign) : Except Exn (Option String) := do
  let fields ← deltaFields delta
  let address ← fields.address.toKey
  if !hasProperty address remoteMissingStates then
    let addressText ← fields.address.text
    pure (some ("received an unknown address " ++ addressText ++ " in SyncStateRes"))
  else
    match remoteMissingStates.lookup address with
    | none => .error .typeError
    | some remote => do
        let index ← fields.key.toKey
        if !hasProperty index remote.deltas then
          let indexText ← fields.key.text
          let addressText ← fields.address.text
          pure (some ("received an unknown index " ++ indexText ++ " for address " ++ addressText))
        else
          let received ← hash keccak256 fields.data
          if differs (remote.deltas.lookup index) received then
            let addressText ← fields.address.text
            let indexText ← fields.key.text
            pure (some ("delta received for address " ++ addressText ++ " in index " ++ indexText ++
              " does not match remote hash"))
          else pure none

/-- The loop over `deltas` ends at the first error. -/
def verifyDeltas : List Foreign → Except Exn (Option String)
  | [] => .ok none
  | delta :: rest => do
      match ← verifyDelta keccak256 remoteMissingStates delta with
      | some err => pure (some err)
      | none => verifyDeltas rest

/-- `StateSyncReqVerifier.verify`: `none` for `isOk`, otherwise the error text. -/
def verify : ResMsg → Except Exn (Option String)
  | .state rawMsg => do
      let deltas ← resultField rawMsg "deltas"
      let items ← deltas.loopItems textToNumber
      verifyDeltas keccak256 remoteMissingStates items
  | .bcode rawMsg => do
      let addressField ← resultField rawMsg "address"
      let bytecode ← resultField rawMsg "bytecode"
      let bytecodeHash ← hash keccak256 bytecode
      let address ← addressField.toKey
      if !hasProperty address remoteMissingStates then
        let addressText ← addressField.text
        pure (some ("received an unknown address " ++ addressText ++ " in SyncBcodeRes"))
      else
        match (remoteMissingStates.lookup address).bind (·.bytecodeHash) with
        | none => do
            let addressText ← addressField.text
            pure (some ("received a bytecodeHash for unknown address " ++ addressText))
        | some remoteHash =>
            if differs (some remoteHash) bytecodeHash then
              let addressText ← addressField.text
              pure (some ("bytecodeHash received for address " ++ addressText ++
                " does not match remote hash"))
            else pure none

/-- The calls `callback(err, isOk)` of `verify`, and how it ends. -/
def verifyCalling (msg : ResMsg) : List (Option String × Bool) × Except Exn Unit :=
  match verify textToNumber keccak256 remoteMissingStates msg with
  | .ok err => ([(err, err.isNone)], .ok ())
  | .error exn => ([], .error exn)

/-! ## What a message should meet -/

/-- The deltas of a state response: what its deltas have under an index. -/
def ContainsDelta (rawMsg delta : Foreign) : Prop :=
  delta ≠ .undefined ∧ ∃ deltas i, resultField rawMsg "deltas" = .ok deltas ∧ deltas.item i = delta

/-- The chain records the data of this delta under its address and index. -/
def RecordedDelta (delta : Foreign) : Prop :=
  ∃ fields address index remote digest, deltaFields delta = .ok fields ∧
    fields.address.toKey = .ok address ∧ fields.key.toKey = .ok index ∧
    remoteMissingStates.lookup address = some remote ∧ remote.deltas.lookup index = some digest ∧
    hash keccak256 fields.data = .ok (some digest)

/-- The chain records the bytecode under its address. -/
def RecordedBytecode (rawMsg : Foreign) : Prop :=
  ∃ addressField address bytecode remote digest, resultField rawMsg "address" = .ok addressField ∧
    addressField.toKey = .ok address ∧ resultField rawMsg "bytecode" = .ok bytecode ∧
    remoteMissingStates.lookup address = some remote ∧ remote.bytecodeHash = some digest ∧
    hash keccak256 bytecode = .ok (some digest)

/-- Everything that a response contains is recorded. -/
def Recorded : ResMsg → Prop
  | .state rawMsg => ∀ delta, ContainsDelta rawMsg delta →
      RecordedDelta keccak256 remoteMissingStates delta
  | .bcode rawMsg => RecordedBytecode keccak256 remoteMissingStates rawMsg

/-- Decoding does not throw, as a request or as a response; and verification of a response
does not throw, calls back once, and passes only what is recorded. -/
structure UntrustedRight (unpack : List UInt8 → Except Exn Foreign) (bytes : List UInt8) :
    Prop where
  request : ∃ msg, requestMessageFromNetwork (decode unpack bytes) = .ok msg
  response : ∃ msg, responseMessageFromNetwork (decode unpack bytes) = .ok msg
  verification : ∀ msg, responseMessageFromNetwork (decode unpack bytes) = .ok (some msg) →
    ∃ err isOk, verifyCalling textToNumber keccak256 remoteMissingStates msg =
      ([(err, isOk)], .ok ()) ∧ (isOk = true → Recorded keccak256 remoteMissingStates msg)

/-! ## The messages that are read to the end -/

/-- The value can be asked for properties of its own, and for the message type if that is
one. -/
def Readable (value : Foreign) : Prop :=
  ∃ isOwn, value.hasOwnProperty "msgType" = .ok isOwn ∧
    (isOwn = true → ∃ msgType, value.get "msgType" = .ok msgType)

/-- The value has bytes. -/
def Hashable (value : Foreign) : Prop :=
  ∃ bytes, value.buffer = .ok bytes

/-- A value with names to read, whose address is text and names a state where it names a
property at all, whose index is text where the address is known, and whose data has bytes
where the index is known. -/
def Comparable (delta : Foreign) : Prop :=
  ∃ fields address, deltaFields delta = .ok fields ∧ fields.address.toKey = .ok address ∧
    (hasProperty address remoteMissingStates = true →
      ∃ remote index, remoteMissingStates.lookup address = some remote ∧
        fields.key.toKey = .ok index ∧
        (hasProperty index remote.deltas = true → Hashable fields.data))

/-- Deltas with a length to loop up to, of which each behind recorded ones only is comparable.
If all that the loop reads are recorded, then so are those that it leaves out. -/
def StateReadable (rawMsg : Foreign) : Prop :=
  ∃ deltas items, resultField rawMsg "deltas" = .ok deltas ∧
    deltas.loopItems textToNumber = .ok items ∧
    (∀ before item after, items = before ++ item :: after →
      (∀ earlier ∈ before, RecordedDelta keccak256 remoteMissingStates earlier) →
        Comparable remoteMissingStates item) ∧
    ((∀ item ∈ items, RecordedDelta keccak256 remoteMissingStates item) →
      ∀ delta, ContainsDelta rawMsg delta →
        delta ∈ items ∨ RecordedDelta keccak256 remoteMissingStates delta)

/-- A result with bytecode that has bytes, under an address that is text. -/
def BcodeReadable (rawMsg : Foreign) : Prop :=
  ∃ addressField address bytecode, resultField rawMsg "address" = .ok addressField ∧
    addressField.toKey = .ok address ∧ resultField rawMsg "bytecode" = .ok bytecode ∧
    Hashable bytecode

/-- The response can be read, by its message type. -/
def ResponseReadable (value : Foreign) : Prop :=
  ∀ msgType, ownMsgType value = .ok (some msgType) →
    (msgType.is P2PMessages.syncStateRes = true →
      StateReadable textToNumber keccak256 remoteMissingStates value) ∧
    (msgType.is P2PMessages.syncBcodeRes = true → BcodeReadable value)

/-! ## Decoding -/

theorem ownMsgType_ok_iff {value : Foreign} :
    (∃ msgType, ownMsgType value = .ok msgType) ↔ Readable value := by
  constructor
  · rintro ⟨msgType, read⟩
    obtain ⟨isOwn, asked, read⟩ := bind_eq_ok.mp read
    refine ⟨isOwn, asked, ?_⟩
    rintro rfl
    obtain ⟨own, isType, -⟩ := bind_eq_ok.mp read
    exact ⟨own, isType⟩
  · rintro ⟨isOwn, asked, own⟩
    cases isOwn with
    | false => exact ⟨none, bind_eq_ok.mpr ⟨false, asked, rfl⟩⟩
    | true =>
        obtain ⟨msgType, isType⟩ := own rfl
        exact ⟨some msgType, bind_eq_ok.mpr ⟨true, asked, bind_eq_ok.mpr ⟨msgType, isType, rfl⟩⟩⟩

/-- Only an object has a message type of its own. -/
theorem isObject_of_ownMsgType {value msgType : Foreign}
    (own : ownMsgType value = .ok (some msgType)) : ∃ answers, value = .object answers := by
  obtain ⟨isOwn, asked, read⟩ := bind_eq_ok.mp own
  cases isOwn with
  | false => cases read
  | true =>
      cases value with
      | object answers => exact ⟨answers, rfl⟩
      | prim primitive =>
          exact absurd asked (Foreign.not_hasOwnProperty_prim (by decide) (by decide))

/-- A value is parsed as a response, or found to be none, exactly if it can be read. -/
theorem responseMessageFromNetwork_ok_iff {value : Foreign} :
    (∃ msg, responseMessageFromNetwork value = .ok msg) ↔ Readable value := by
  rw [← ownMsgType_ok_iff]
  constructor
  · rintro ⟨msg, built⟩
    obtain ⟨msgType, read, -⟩ := bind_eq_ok.mp built
    exact ⟨msgType, read⟩
  · rintro ⟨msgType, read⟩
    rw [responseMessageFromNetwork, read]
    cases msgType with
    | none => exact ⟨none, rfl⟩
    | some msgType =>
        simp only [bind, Except.bind]
        split
        · exact ⟨_, rfl⟩
        · split <;> exact ⟨_, rfl⟩

/-- So it is with requests. -/
theorem requestMessageFromNetwork_ok_iff {value : Foreign} :
    (∃ msg, requestMessageFromNetwork value = .ok msg) ↔ Readable value := by
  rw [← ownMsgType_ok_iff]
  constructor
  · rintro ⟨msg, built⟩
    obtain ⟨msgType, read, -⟩ := bind_eq_ok.mp built
    exact ⟨msgType, read⟩
  · rintro ⟨msgType, read⟩
    rw [requestMessageFromNetwork, read]
    cases msgType with
    | none => exact ⟨none, rfl⟩
    | some msgType =>
        obtain ⟨answers, rfl⟩ := isObject_of_ownMsgType read
        simp only [bind, Except.bind]
        split
        · exact ⟨_, rfl⟩
        · split <;> exact ⟨_, rfl⟩

/-- A response is the value received, by its message type. -/
theorem responseMessageFromNetwork_eq_some {value : Foreign} {msg : ResMsg} :
    responseMessageFromNetwork value = .ok (some msg) ↔
      ∃ msgType, ownMsgType value = .ok (some msgType) ∧
        ((msgType.is P2PMessages.syncStateRes = true ∧ msg = .state value) ∨
          (msgType.is P2PMessages.syncBcodeRes = true ∧ msg = .bcode value)) := by
  constructor
  · intro built
    obtain ⟨own, read, picked⟩ := bind_eq_ok.mp built
    cases own with
    | none => cases picked
    | some msgType =>
        refine ⟨msgType, read, ?_⟩
        dsimp only at picked
        split at picked
        · rename_i isState
          cases picked
          exact .inl ⟨isState, rfl⟩
        · split at picked
          · rename_i isBcode
            cases picked
            exact .inr ⟨isBcode, rfl⟩
          · cases picked
  · rintro ⟨msgType, read, outcome⟩
    refine bind_eq_ok.mpr ⟨some msgType, read, ?_⟩
    rcases outcome with ⟨isState, rfl⟩ | ⟨isBcode, rfl⟩
    · exact if_pos isState
    · have notState : ¬ msgType.is P2PMessages.syncStateRes = true := by
        rw [Foreign.is_iff.mp isBcode, Foreign.is_iff]
        exact Foreign.str_ne (by decide)
      exact (if_neg notState).trans (if_pos isBcode)

/-- An ordinary object can be read exactly if it inherits `hasOwnProperty` and no other
property has that name. -/
theorem readable_plain_iff {own inherited : List (String × Foreign)} {rooted : Bool}
    {buffer : Except Exn (List UInt8)} :
    Readable (.plain own inherited rooted buffer) ↔
      rooted = true ∧ (own ++ inherited).lookup "hasOwnProperty" = none := by
  constructor
  · rintro ⟨isOwn, asked, -⟩
    by_contra missing
    rw [Foreign.hasOwnProperty_plain, if_neg missing] at asked
    cases asked
  · intro inherits
    refine ⟨_, (Foreign.hasOwnProperty_plain ..).trans (if_pos inherits), fun _ => ⟨_, rfl⟩⟩

/-! ## Verification -/

section

variable {textToNumber : String → Number} {keccak256 : List UInt8 → List UInt8}
variable {remoteMissingStates : RemoteMissingStates}

theorem hash_ok_iff {value : Foreign} :
    (∃ digest, hash keccak256 value = .ok digest) ↔ Hashable value := by
  constructor
  · rintro ⟨digest, hashed⟩
    obtain ⟨bytes, read, -⟩ := bind_eq_ok.mp hashed
    exact ⟨bytes, read⟩
  · rintro ⟨bytes, read⟩
    exact ⟨_, bind_eq_ok.mpr ⟨bytes, read, rfl⟩⟩

/-- One comparison ends exactly for comparable deltas. -/
theorem verifyDelta_ok_iff {delta : Foreign} :
    (∃ err, verifyDelta keccak256 remoteMissingStates delta = .ok err) ↔
      Comparable remoteMissingStates delta := by
  constructor
  · rintro ⟨err, ended⟩
    obtain ⟨fields, read, ended⟩ := bind_eq_ok.mp ended
    obtain ⟨address, isText, ended⟩ := bind_eq_ok.mp ended
    refine ⟨fields, address, read, isText, fun known => ?_⟩
    rw [known, Bool.not_true, if_neg (by nofun)] at ended
    cases found : remoteMissingStates.lookup address with
    | none =>
        rw [found] at ended
        cases ended
    | some remote =>
        rw [found] at ended
        obtain ⟨index, isIndex, ended⟩ := bind_eq_ok.mp ended
        refine ⟨remote, index, rfl, isIndex, fun knownIndex => ?_⟩
        rw [knownIndex, Bool.not_true, if_neg (by nofun)] at ended
        obtain ⟨received, hashed, -⟩ := bind_eq_ok.mp ended
        exact hash_ok_iff.mp ⟨received, hashed⟩
  · rintro ⟨fields, address, read, isText, readable⟩
    obtain ⟨addressText, isAddressText⟩ := Foreign.text_ok_iff.mpr ⟨address, isText⟩
    simp only [verifyDelta, read, isText, isAddressText, bind, Except.bind]
    split
    · exact ⟨_, rfl⟩
    · rename_i known
      rw [Bool.not_eq_true, Bool.not_eq_false'] at known
      obtain ⟨remote, index, found, isIndex, readable⟩ := readable known
      obtain ⟨indexText, isIndexText⟩ := Foreign.text_ok_iff.mpr ⟨index, isIndex⟩
      simp only [found, isIndex, isIndexText]
      split
      · exact ⟨_, rfl⟩
      · rename_i knownIndex
        rw [Bool.not_eq_true, Bool.not_eq_false'] at knownIndex
        obtain ⟨received, hashed⟩ := hash_ok_iff.mpr (readable knownIndex)
        rw [hashed]
        dsimp only
        split <;> exact ⟨_, rfl⟩

/-- One comparison finds nothing exactly at recorded deltas. -/
theorem verifyDelta_eq_none_iff {delta : Foreign} :
    verifyDelta keccak256 remoteMissingStates delta = .ok none ↔
      RecordedDelta keccak256 remoteMissingStates delta := by
  constructor
  · intro verified
    obtain ⟨fields, read, verified⟩ := bind_eq_ok.mp verified
    obtain ⟨address, isText, verified⟩ := bind_eq_ok.mp verified
    split at verified
    · obtain ⟨_, -, verified⟩ := bind_eq_ok.mp verified
      cases verified
    · split at verified
      · cases verified
      · rename_i remote found
        obtain ⟨index, isIndex, verified⟩ := bind_eq_ok.mp verified
        split at verified
        · obtain ⟨_, -, verified⟩ := bind_eq_ok.mp verified
          obtain ⟨_, -, verified⟩ := bind_eq_ok.mp verified
          cases verified
        · obtain ⟨received, hashed, verified⟩ := bind_eq_ok.mp verified
          split at verified
          · obtain ⟨_, -, verified⟩ := bind_eq_ok.mp verified
            obtain ⟨_, -, verified⟩ := bind_eq_ok.mp verified
            cases verified
          · rename_i same
            obtain ⟨digest, recorded, rfl⟩ := differs_eq_false (Bool.eq_false_iff.mpr same)
            exact ⟨fields, address, index, remote, digest, read, isText, isIndex, found, recorded,
              hashed⟩
  · rintro ⟨fields, address, index, remote, digest, read, isText, isIndex, found, recorded,
      hashed⟩
    have known := hasProperty_of_lookup found
    have knownIndex := hasProperty_of_lookup recorded
    simp only [verifyDelta, read, isText, isIndex, hashed, bind, Except.bind, known, found,
      knownIndex, recorded, differs_self, Bool.not_true, Bool.false_eq_true, if_false]
    rfl

theorem verifyDeltas_cons_of_recorded {delta : Foreign} (rest : List Foreign)
    (recorded : RecordedDelta keccak256 remoteMissingStates delta) :
    verifyDeltas keccak256 remoteMissingStates (delta :: rest) =
      verifyDeltas keccak256 remoteMissingStates rest := by
  rw [verifyDeltas, verifyDelta_eq_none_iff.mpr recorded]
  rfl

theorem verifyDeltas_eq_none_iff {items : List Foreign} :
    verifyDeltas keccak256 remoteMissingStates items = .ok none ↔
      ∀ item ∈ items, RecordedDelta keccak256 remoteMissingStates item := by
  induction items with
  | nil => exact ⟨fun _ => nofun, fun _ => rfl⟩
  | cons delta rest ih =>
      rw [List.forall_mem_cons]
      constructor
      · intro verified
        obtain ⟨err, first, later⟩ := bind_eq_ok.mp verified
        cases err with
        | some err => cases later
        | none => exact ⟨verifyDelta_eq_none_iff.mp first, ih.mp later⟩
      · rintro ⟨first, later⟩
        rw [verifyDeltas_cons_of_recorded rest first]
        exact ih.mpr later

/-- The loop ends exactly if each delta behind recorded ones only is comparable. -/
theorem verifyDeltas_ok_iff {items : List Foreign} :
    (∃ err, verifyDeltas keccak256 remoteMissingStates items = .ok err) ↔
      ∀ before item after, items = before ++ item :: after →
        (∀ earlier ∈ before, RecordedDelta keccak256 remoteMissingStates earlier) →
          Comparable remoteMissingStates item := by
  induction items with
  | nil =>
      refine ⟨fun _ before item after split => ?_, fun _ => ⟨none, rfl⟩⟩
      exact absurd split.symm (by simp)
  | cons first rest ih =>
      constructor
      · rintro ⟨err, ended⟩ before item after split recorded
        cases before with
        | nil =>
            obtain ⟨rfl, rfl⟩ := List.cons.inj split
            obtain ⟨result, compared, -⟩ := bind_eq_ok.mp ended
            exact verifyDelta_ok_iff.mp ⟨result, compared⟩
        | cons earlier before =>
            obtain ⟨rfl, later⟩ := List.cons.inj split
            obtain ⟨isRecorded, recorded⟩ := List.forall_mem_cons.mp recorded
            rw [verifyDeltas_cons_of_recorded rest isRecorded] at ended
            exact ih.mp ⟨err, ended⟩ before item after later recorded
      · intro comparable
        obtain ⟨result, compared⟩ :=
          verifyDelta_ok_iff.mpr (comparable [] first rest rfl (by simp))
        rw [verifyDeltas, compared]
        cases result with
        | some err => exact ⟨some err, rfl⟩
        | none =>
            refine ih.mpr fun before item after later recorded => ?_
            refine comparable (first :: before) item after (congrArg (first :: ·) later) ?_
            exact List.forall_mem_cons.mpr ⟨verifyDelta_eq_none_iff.mp compared, recorded⟩

/-- The callback is called once, and told the truth, exactly if `verify` ends and finds
nothing only where everything is recorded. -/
theorem verifyCalling_iff {msg : ResMsg} :
    (∃ err isOk, verifyCalling textToNumber keccak256 remoteMissingStates msg =
        ([(err, isOk)], .ok ()) ∧ (isOk = true → Recorded keccak256 remoteMissingStates msg)) ↔
    (∃ err, verify textToNumber keccak256 remoteMissingStates msg = .ok err) ∧
      (verify textToNumber keccak256 remoteMissingStates msg = .ok none →
        Recorded keccak256 remoteMissingStates msg) := by
  unfold verifyCalling
  cases verify textToNumber keccak256 remoteMissingStates msg with
  | error exn =>
      exact ⟨fun ⟨_, _, ended, _⟩ => (by cases ended), fun ⟨⟨_, ended⟩, _⟩ => (by cases ended)⟩
  | ok err =>
      constructor
      · rintro ⟨_, _, called, sound⟩
        cases called
        refine ⟨⟨err, rfl⟩, fun passed => ?_⟩
        cases passed
        exact sound rfl
      · rintro ⟨-, sound⟩
        refine ⟨err, err.isNone, rfl, fun isOk => ?_⟩
        rw [Option.isNone_iff_eq_none] at isOk
        exact sound (congrArg Except.ok isOk)

/-- With the items that the loop reads, `verify` is the loop. -/
theorem verify_state {rawMsg deltas : Foreign} {items : List Foreign}
    (isDeltas : resultField rawMsg "deltas" = .ok deltas)
    (isItems : deltas.loopItems textToNumber = .ok items) :
    verify textToNumber keccak256 remoteMissingStates (.state rawMsg) =
      verifyDeltas keccak256 remoteMissingStates items := by
  simp only [verify, isDeltas, isItems, bind, Except.bind]

/-- A state response is verified right exactly if it can be read. -/
theorem verify_state_iff {rawMsg : Foreign} :
    ((∃ err, verify textToNumber keccak256 remoteMissingStates (.state rawMsg) = .ok err) ∧
      (verify textToNumber keccak256 remoteMissingStates (.state rawMsg) = .ok none →
        Recorded keccak256 remoteMissingStates (.state rawMsg))) ↔
    StateReadable textToNumber keccak256 remoteMissingStates rawMsg := by
  constructor
  · rintro ⟨⟨err, ended⟩, sound⟩
    obtain ⟨deltas, isDeltas, looped⟩ := bind_eq_ok.mp ended
    obtain ⟨items, isItems, -⟩ := bind_eq_ok.mp looped
    rw [verify_state isDeltas isItems] at ended sound
    refine ⟨deltas, items, isDeltas, isItems, verifyDeltas_ok_iff.mp ⟨err, ended⟩, ?_⟩
    intro recorded delta contained
    exact .inr (sound (verifyDeltas_eq_none_iff.mpr recorded) delta contained)
  · rintro ⟨deltas, items, isDeltas, isItems, comparable, complete⟩
    rw [verify_state isDeltas isItems]
    refine ⟨verifyDeltas_ok_iff.mpr comparable, fun verified delta contained => ?_⟩
    have recorded := verifyDeltas_eq_none_iff.mp verified
    rcases complete recorded delta contained with member | isRecorded
    · exact recorded delta member
    · exact isRecorded

/-- Bytecode that passes is recorded. -/
theorem recorded_of_verify_bcode {rawMsg : Foreign}
    (verified : verify textToNumber keccak256 remoteMissingStates (.bcode rawMsg) = .ok none) :
    Recorded keccak256 remoteMissingStates (.bcode rawMsg) := by
  obtain ⟨addressField, isField, verified⟩ := bind_eq_ok.mp verified
  obtain ⟨bytecode, isBytecode, verified⟩ := bind_eq_ok.mp verified
  obtain ⟨digest, hashed, verified⟩ := bind_eq_ok.mp verified
  obtain ⟨address, isText, verified⟩ := bind_eq_ok.mp verified
  split at verified
  · obtain ⟨_, -, verified⟩ := bind_eq_ok.mp verified
    cases verified
  · split at verified
    · obtain ⟨_, -, verified⟩ := bind_eq_ok.mp verified
      cases verified
    · rename_i remoteHash known
      obtain ⟨remote, found, recorded⟩ := Option.bind_eq_some_iff.mp known
      split at verified
      · obtain ⟨_, -, verified⟩ := bind_eq_ok.mp verified
        cases verified
      · rename_i same
        obtain ⟨digest, isDigest, rfl⟩ := differs_eq_false (Bool.eq_false_iff.mpr same)
        cases isDigest
        exact ⟨addressField, address, bytecode, remote, remoteHash, isField, isText, isBytecode,
          found, recorded, hashed⟩

/-- A bytecode response is verified right exactly if it can be read. -/
theorem verify_bcode_iff {rawMsg : Foreign} :
    ((∃ err, verify textToNumber keccak256 remoteMissingStates (.bcode rawMsg) = .ok err) ∧
      (verify textToNumber keccak256 remoteMissingStates (.bcode rawMsg) = .ok none →
        Recorded keccak256 remoteMissingStates (.bcode rawMsg))) ↔
    BcodeReadable rawMsg := by
  constructor
  · rintro ⟨⟨err, ended⟩, -⟩
    obtain ⟨addressField, isField, ended⟩ := bind_eq_ok.mp ended
    obtain ⟨bytecode, isBytecode, ended⟩ := bind_eq_ok.mp ended
    obtain ⟨digest, hashed, ended⟩ := bind_eq_ok.mp ended
    obtain ⟨address, isText, -⟩ := bind_eq_ok.mp ended
    exact ⟨addressField, address, bytecode, isField, isText, isBytecode,
      hash_ok_iff.mp ⟨digest, hashed⟩⟩
  · rintro ⟨addressField, address, bytecode, isField, isText, isBytecode, hashable⟩
    obtain ⟨digest, hashed⟩ := @hash_ok_iff keccak256 _ |>.mpr hashable
    obtain ⟨addressText, isAddressText⟩ := Foreign.text_ok_iff.mpr ⟨address, isText⟩
    refine ⟨?_, recorded_of_verify_bcode⟩
    simp only [verify, isField, isBytecode, isText, isAddressText, hashed, bind, Except.bind]
    split
    · exact ⟨_, rfl⟩
    · split
      · exact ⟨_, rfl⟩
      · split <;> exact ⟨_, rfl⟩

end

/-- A peer's bytes are handled right exactly if their value can be read, and the response in
it, if it is one, can be. -/
theorem untrustedRight_iff (textToNumber : String → Number)
    (keccak256 : List UInt8 → List UInt8) (remoteMissingStates : RemoteMissingStates)
    (unpack : List UInt8 → Except Exn Foreign) (bytes : List UInt8) :
    UntrustedRight textToNumber keccak256 remoteMissingStates unpack bytes ↔
      Readable (decode unpack bytes) ∧
        ResponseReadable textToNumber keccak256 remoteMissingStates (decode unpack bytes) := by
  constructor
  · intro right
    refine ⟨responseMessageFromNetwork_ok_iff.mp right.response, fun msgType own => ⟨?_, ?_⟩⟩
    · intro isState
      have built := responseMessageFromNetwork_eq_some.mpr ⟨msgType, own, .inl ⟨isState, rfl⟩⟩
      exact verify_state_iff.mp (verifyCalling_iff.mp (right.verification _ built))
    · intro isBcode
      have built := responseMessageFromNetwork_eq_some.mpr ⟨msgType, own, .inr ⟨isBcode, rfl⟩⟩
      exact verify_bcode_iff.mp (verifyCalling_iff.mp (right.verification _ built))
  · rintro ⟨readable, responseReadable⟩
    refine ⟨requestMessageFromNetwork_ok_iff.mpr readable,
      responseMessageFromNetwork_ok_iff.mpr readable, fun msg built => ?_⟩
    obtain ⟨msgType, own, outcome⟩ := responseMessageFromNetwork_eq_some.mp built
    obtain ⟨ofState, ofBcode⟩ := responseReadable msgType own
    rcases outcome with ⟨isState, rfl⟩ | ⟨isBcode, rfl⟩
    · exact verifyCalling_iff.mpr (verify_state_iff.mpr (ofState isState))
    · exact verifyCalling_iff.mpr (verify_bcode_iff.mpr (ofBcode isBcode))

/-! ## Plain data -/

section

variable {platform : Platform} {remoteMissingStates : RemoteMissingStates}

/-- The response around plain data. -/
def ofMsg (platform : Platform) : SyncResMsg → ResMsg
  | .state rawMsg => .state (.ofJson platform.stringToNumber (.obj rawMsg))
  | .bcode rawMsg => .bcode (.ofJson platform.stringToNumber (.obj rawMsg))

theorem resultField_ofJson (rawMsg : List (String × Json)) {key : String}
    (fresh : key ∉ arrayPrototype) :
    resultField (.ofJson platform.stringToNumber (.obj rawMsg)) key =
      (Sync.resultField rawMsg key).map (Foreign.ofOption platform.stringToNumber) := by
  rw [resultField, Foreign.get_obj rawMsg (by decide), Sync.resultField]
  change (Foreign.ofOption _ _).get key = _
  split
  · rename_i missing
    rw [missing]
    rfl
  · rename_i isNull
    rw [isNull]
    rfl
  · rename_i result notNull found
    rw [found]
    exact Foreign.get_ofJson (fun isNull => notNull isNull) fresh

theorem hash_ofOption (value : Option Json) :
    hash platform.keccak256 (.ofOption platform.stringToNumber value) =
      Common.hash platform value := by
  rw [hash, Foreign.buffer_ofOption, Common.hash]
  rfl

theorem deltaFields_ofJson {delta : Json} (notNull : delta ≠ .null) :
    deltaFields (.ofJson platform.stringToNumber delta) =
      .ok ⟨.ofOption platform.stringToNumber (delta.get? "address"),
        .ofOption platform.stringToNumber (delta.get? "data"),
        .ofOption platform.stringToNumber (delta.get? "key")⟩ := by
  rw [deltaFields, Foreign.get_ofJson notNull (by decide), Foreign.get_ofJson notNull (by decide),
    Foreign.get_ofJson notNull (by decide)]
  rfl

theorem verifyDelta_ofOption (item : Option Json) :
    verifyDelta platform.keccak256 remoteMissingStates
      (.ofOption platform.stringToNumber item) =
        Sync.verifyDelta platform remoteMissingStates item := by
  unfold Sync.verifyDelta
  split
  · rfl
  · rfl
  · rename_i delta notNull
    rw [verifyDelta, Foreign.ofOption_some, deltaFields_ofJson (fun isNull => notNull isNull)]
    simp only [Foreign.toKey_ofOption, Foreign.text_ofOption, hash_ofOption, bind, Except.bind]
    cases keyOf (delta.get? "address") with
    | error exn => rfl
    | ok address =>
        cases keyOf (delta.get? "key") <;> rfl

theorem verifyDeltas_ofOption (items : List (Option Json)) :
    verifyDeltas platform.keccak256 remoteMissingStates
      (items.map (Foreign.ofOption platform.stringToNumber)) =
        Sync.verifyDeltas platform remoteMissingStates items := by
  induction items with
  | nil => rfl
  | cons item rest ih =>
      rw [List.map_cons, verifyDeltas, Sync.verifyDeltas, verifyDelta_ofOption]
      cases Sync.verifyDelta platform remoteMissingStates item with
      | error exn => rfl
      | ok mismatch =>
          cases mismatch with
          | some err => rfl
          | none => exact ih

/-- On plain data, the verifier is the one of the synchronisation. -/
theorem verify_ofMsg (notNumber : platform.stringToNumber "[object Object]" = none)
    (msg : SyncResMsg) :
    verify (fun s => .ofOption (platform.stringToNumber s)) platform.keccak256
      remoteMissingStates (ofMsg platform msg) = Sync.verify platform remoteMissingStates msg := by
  cases msg with
  | state rawMsg =>
      rw [ofMsg, verify, resultField_ofJson rawMsg (by decide), Sync.verify]
      cases Sync.resultField rawMsg "deltas" with
      | error exn => rfl
      | ok deltas =>
          change ((Foreign.ofOption platform.stringToNumber deltas).loopItems _ >>= _) =
            (loopItems platform.stringToNumber deltas >>= _)
          rw [Foreign.loopItems_ofOption notNumber]
          cases loopItems platform.stringToNumber deltas with
          | error exn => rfl
          | ok items => exact verifyDeltas_ofOption items
  | bcode rawMsg =>
      rw [ofMsg, verify, resultField_ofJson rawMsg (by decide),
        resultField_ofJson rawMsg (by decide), Sync.verify]
      cases Sync.resultField rawMsg "address" with
      | error exn => rfl
      | ok addressField =>
          cases Sync.resultField rawMsg "bytecode" with
          | error exn => rfl
          | ok bytecode =>
              simp only [Except.map, bind, Except.bind, hash_ofOption, Foreign.toKey_ofOption,
                Foreign.text_ofOption]
              cases Common.hash platform bytecode with
              | error exn => rfl
              | ok digest => cases keyOf addressField <;> rfl

/-- The builder of responses is the one of the synchronisation there, too. -/
theorem responseMessageFromNetwork_ofJson (msgObj : Json) :
    responseMessageFromNetwork (.ofJson platform.stringToNumber msgObj) =
      (Sync.responseMessageFromNetwork msgObj).map (·.map (ofMsg platform)) := by
  cases msgObj with
  | null => rfl
  | obj fields =>
      rw [responseMessageFromNetwork, ownMsgType, Foreign.hasOwnProperty_obj,
        Sync.responseMessageFromNetwork, Sync.ownMsgType]
      cases fields.lookup "hasOwnProperty" with
      | some _ => rfl
      | none =>
          have read := @Foreign.get_obj platform.stringToNumber fields "msgType" (by decide)
          cases own : fields.lookup "msgType" with
          | none => rfl
          | some msgType =>
              rw [own] at read
              simp only [bind, Except.bind, Option.isSome_some, if_true, read,
                Foreign.ofOption_some, Foreign.is_ofJson, decide_eq_true_eq, pure, Except.pure,
                Except.map, Option.isSome_none, Bool.false_eq_true, if_false, Option.some.injEq]
              split
              · rfl
              · split <;> rfl
  | bool b | num q | str s | arr items =>
      rw [responseMessageFromNetwork, ownMsgType,
        Foreign.hasOwnProperty_of_not_obj ?_ ?_ (by decide) (by decide)]
      · rfl
      · rintro ⟨⟩
      · rintro fields ⟨⟩

end

/-! ## Five messages -/

/-- The encoding of a text of less than 32 bytes. -/
def packText (text : String) : List UInt8 :=
  UInt8.ofNat (160 + text.utf8ByteSize) :: text.toUTF8.toList

/-- A decoder that knows one message. -/
def unpackOnly (encoded : List UInt8) (value : Foreign) (bytes : List UInt8) :
    Except Exn Foreign :=
  if bytes = encoded then .ok value else .error .error

@[simp] theorem decode_unpackOnly (encoded : List UInt8) (value : Foreign) :
    decode (unpackOnly encoded value) encoded = value := by
  rw [decode, unpackOnly, if_pos rfl]

/-- A state response that ends before its result. -/
def noResult : Foreign :=
  .ofJson (fun _ => none) (.obj [("msgType", .str P2PMessages.syncStateRes)])

def noResultBytes : List UInt8 :=
  129 :: packText "msgType" ++ packText P2PMessages.syncStateRes

/-- A state response without a prototype, `{msgType, __proto__: null}`. -/
def noPrototype : Foreign :=
  .plain [("msgType", .str P2PMessages.syncStateRes)] [] false (.error .typeError)

def noPrototypeBytes : List UInt8 :=
  130 :: packText "msgType" ++ packText P2PMessages.syncStateRes ++ packText "__proto__" ++ [192]

/-- A state response with one delta, without index and data. -/
def deltaFor (address : String) : Foreign :=
  .ofJson (fun _ => none) (.obj [("msgType", .str P2PMessages.syncStateRes),
    ("result", .obj [("deltas", .arr [.obj [("address", .str address)]])])])

def deltaForBytes (address : String) : List UInt8 :=
  130 :: packText "msgType" ++ packText P2PMessages.syncStateRes ++ packText "result" ++
    129 :: packText "deltas" ++ 145 :: 129 :: packText "address" ++ packText address

/-- The same delta in an object in place of an array. -/
def deltaInObject (address : String) : Foreign :=
  .ofJson (fun _ => none) (.obj [("msgType", .str P2PMessages.syncStateRes),
    ("result", .obj [("deltas", .obj [("0", .obj [("address", .str address)])])])])

def deltaInObjectBytes (address : String) : List UInt8 :=
  130 :: packText "msgType" ++ packText P2PMessages.syncStateRes ++ packText "result" ++
    129 :: packText "deltas" ++ 129 :: packText "0" ++ 129 :: packText "address" ++
    packText address

/-- Nothing is asked of an encoded `null` before a property is read, nor of an object before
`hasOwnProperty` is called, of a response before its result is read, and of an address before
the state it names is; and the loop passes by an object without a length. -/
theorem untrustedRight_wrong :
    let right := UntrustedRight (fun _ => .nan) id [("0a", ⟨[("0", "0x00")], none⟩)]
    ¬ right (unpackOnly [192] .null) [192] ∧
    ¬ right (unpackOnly noPrototypeBytes noPrototype) noPrototypeBytes ∧
    ¬ right (unpackOnly noResultBytes noResult) noResultBytes ∧
    ¬ right (unpackOnly (deltaForBytes "constructor") (deltaFor "constructor"))
      (deltaForBytes "constructor") ∧
    ¬ right (unpackOnly (deltaInObjectBytes "0a") (deltaInObject "0a"))
      (deltaInObjectBytes "0a") := by
  intro right
  refine ⟨?_, ?_, ?_, ?_, ?_⟩
  · rintro ⟨⟨_, built⟩, -, -⟩
    rw [decode_unpackOnly] at built
    cases built
  · rintro ⟨⟨_, built⟩, -, -⟩
    rw [decode_unpackOnly] at built
    cases built
  · rintro ⟨-, -, right⟩
    rw [decode_unpackOnly] at right
    obtain ⟨_, _, called, -⟩ := right (.state noResult) rfl
    cases called
  · rintro ⟨-, -, right⟩
    rw [decode_unpackOnly] at right
    obtain ⟨_, _, called, -⟩ := right (.state (deltaFor "constructor")) rfl
    cases called
  · rintro ⟨-, -, right⟩
    rw [decode_unpackOnly] at right
    obtain ⟨_, _, called, sound⟩ := right (.state (deltaInObject "0a")) rfl
    cases called
    have contained : ContainsDelta (deltaInObject "0a")
        (.ofJson (fun _ => none) (.obj [("address", .str "0a")])) :=
      ⟨nofun, _, 0, rfl, rfl⟩
    obtain ⟨_, _, _, _, _, read, -, -, -, -, hashed⟩ := sound rfl _ contained
    cases read
    cases hashed

end Sync.Untrusted
