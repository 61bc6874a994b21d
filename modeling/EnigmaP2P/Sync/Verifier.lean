import EnigmaP2P.Common.Cryptography
import EnigmaP2P.Sync.Messages

/-!
# Verification of responses against the chain

`StateSyncReqVerifier.verify` compares what a response carries with the hashes that
the missing states map records. A map is an object: an address or an index may also
name an inherited property, which has no hash, and the comparison then throws or
fails. A message that passes carries only data whose hash is recorded for exactly
its address and index.
-/

namespace Sync

open Js Common

/-- The hashes that the chain records for one contract. -/
structure RemoteState where
  deltas : List (String × String)
  bytecodeHash : Option String
  deriving DecidableEq

/-- `remoteMissingStates`, by contract address. -/
abbrev RemoteMissingStates := List (String × RemoteState)

variable (platform : Platform) (remoteMissingStates : RemoteMissingStates)

/-- `remoteHash != hash`, where an inherited property differs from every hash. -/
def differs (remoteHash hash : Option String) : Bool :=
  match remoteHash, hash with
  | some remote, some received => decide (remote ≠ received)
  | _, _ => true

/-- One iteration over `deltas`: `none` if the delta matches, otherwise the error. -/
def verifyDelta : Option Json → Except Exn (Option String)
  | none | some .null => .error .typeError
  | some delta => do
      let address ← keyOf (delta.get? "address")
      if !hasProperty address remoteMissingStates then
        pure (some ("received an unknown address " ++ address ++ " in SyncStateRes"))
      else
        match remoteMissingStates.lookup address with
        | none => .error .typeError
        | some remote => do
            let index ← keyOf (delta.get? "key")
            if !hasProperty index remote.deltas then
              pure (some ("received an unknown index " ++ index ++ " for address " ++ address))
            else do
              let received ← hash platform (delta.get? "data")
              if differs (remote.deltas.lookup index) received then
                pure (some ("delta received for address " ++ address ++ " in index " ++ index ++
                  " does not match remote hash"))
              else pure none

/-- The loop over `deltas` ends at the first error. -/
def verifyDeltas : List (Option Json) → Except Exn (Option String)
  | [] => .ok none
  | delta :: rest => do
      match ← verifyDelta platform remoteMissingStates delta with
      | some err => pure (some err)
      | none => verifyDeltas rest

/-- `StateSyncReqVerifier.verify`: `none` for `isOk`, otherwise the error text. -/
def verify : SyncResMsg → Except Exn (Option String)
  | .state rawMsg => do
      let deltas ← resultField rawMsg "deltas"
      let items ← loopItems platform.stringToNumber deltas
      verifyDeltas platform remoteMissingStates items
  | .bcode rawMsg => do
      let addressField ← resultField rawMsg "address"
      let bytecode ← resultField rawMsg "bytecode"
      let bytecodeHash ← hash platform bytecode
      let address ← keyOf addressField
      if !hasProperty address remoteMissingStates then
        pure (some ("received an unknown address " ++ address ++ " in SyncBcodeRes"))
      else
        match (remoteMissingStates.lookup address).bind (·.bytecodeHash) with
        | none => pure (some ("received a bytecodeHash for unknown address " ++ address))
        | some remoteHash =>
            if differs (some remoteHash) bytecodeHash then
              pure (some ("bytecodeHash received for address " ++ address ++
                " does not match remote hash"))
            else pure none

/-! ## What a response carries -/

/-- A state response has an item with this address, index and data. -/
def CarriesDelta (msg : SyncResMsg) (address index : String) (data : Option Json) : Prop :=
  ∃ rawMsg deltas items item, msg = .state rawMsg ∧
    resultField rawMsg "deltas" = .ok deltas ∧
    loopItems platform.stringToNumber deltas = .ok items ∧ some item ∈ items ∧
    keyOf (item.get? "address") = .ok address ∧ keyOf (item.get? "key") = .ok index ∧
    item.get? "data" = data

/-- A bytecode response for this address. -/
def CarriesBytecode (msg : SyncResMsg) (address : String) (bytecode : Option Json) : Prop :=
  ∃ rawMsg addressField, msg = .bcode rawMsg ∧
    resultField rawMsg "address" = .ok addressField ∧ keyOf addressField = .ok address ∧
    resultField rawMsg "bytecode" = .ok bytecode

/-- The data hashes to what the chain records for this address and index. -/
def MatchesDelta (address index : String) (data : Option Json) : Prop :=
  ∃ remote digest, remoteMissingStates.lookup address = some remote ∧
    remote.deltas.lookup index = some digest ∧ hash platform data = .ok (some digest)

/-- The bytecode hashes to what the chain records for this address. -/
def MatchesBytecode (address : String) (bytecode : Option Json) : Prop :=
  ∃ remote digest, remoteMissingStates.lookup address = some remote ∧
    remote.bytecodeHash = some digest ∧ hash platform bytecode = .ok (some digest)

variable {platform remoteMissingStates}

theorem differs_eq_false {remoteHash hash : Option String} (h : differs remoteHash hash = false) :
    ∃ digest, remoteHash = some digest ∧ hash = some digest := by
  unfold differs at h
  split at h
  · rename_i remote received
    have same : remote = received := by simpa using h
    exact ⟨received, congrArg some same, rfl⟩
  · cases h

@[simp] theorem differs_self (digest : String) : differs (some digest) (some digest) = false := by
  simp [differs]

/-- A delta without error is recorded on the chain under its address and index. -/
theorem verifyDelta_eq_none {delta : Option Json}
    (h : verifyDelta platform remoteMissingStates delta = .ok none) :
    ∃ item address index, delta = some item ∧ keyOf (item.get? "address") = .ok address ∧
      keyOf (item.get? "key") = .ok index ∧
      MatchesDelta platform remoteMissingStates address index (item.get? "data") := by
  unfold verifyDelta at h
  split at h
  · cases h
  · cases h
  · rename_i item _
    obtain ⟨address, haddress, h⟩ := bind_eq_ok.mp h
    split at h
    · cases h
    · split at h
      · cases h
      · rename_i remote hremote
        obtain ⟨index, hindex, h⟩ := bind_eq_ok.mp h
        split at h
        · cases h
        · obtain ⟨received, hhash, h⟩ := bind_eq_ok.mp h
          split at h
          · cases h
          · rename_i same
            obtain ⟨digest, hdigest, rfl⟩ := differs_eq_false (Bool.eq_false_iff.mpr same)
            exact ⟨item, address, index, rfl, haddress, hindex, remote, digest, hremote, hdigest,
              hhash⟩

/-- Conversely, recorded data passes under its own address and index. -/
theorem verifyDelta_of_matches {item : Json} {address index : String} (notNull : item ≠ .null)
    (haddress : keyOf (item.get? "address") = .ok address)
    (hindex : keyOf (item.get? "key") = .ok index)
    (recorded : MatchesDelta platform remoteMissingStates address index (item.get? "data")) :
    verifyDelta platform remoteMissingStates (some item) = .ok none := by
  obtain ⟨remote, digest, hremote, hdigest, hhash⟩ := recorded
  have known := hasProperty_of_lookup hremote
  have knownIndex := hasProperty_of_lookup hdigest
  cases item with
  | null => exact absurd rfl notNull
  | _ =>
      simp only [verifyDelta, haddress, hindex, hhash, bind, Except.bind, known, hremote,
        knownIndex, hdigest, differs_self, Bool.not_true, Bool.false_eq_true, if_false]
      rfl

theorem verifyDeltas_eq_none {items : List (Option Json)}
    (h : verifyDeltas platform remoteMissingStates items = .ok none) :
    ∀ delta ∈ items, verifyDelta platform remoteMissingStates delta = .ok none := by
  induction items with
  | nil => nofun
  | cons delta rest ih =>
      obtain ⟨result, hdelta, h⟩ := bind_eq_ok.mp h
      cases result with
      | some err => cases h
      | none => exact List.forall_mem_cons.mpr ⟨hdelta, ih h⟩

/-- Deltas that each pass alone pass together. -/
theorem verifyDeltas_of_forall {items : List (Option Json)}
    (h : ∀ delta ∈ items, verifyDelta platform remoteMissingStates delta = .ok none) :
    verifyDeltas platform remoteMissingStates items = .ok none := by
  induction items with
  | nil => rfl
  | cons delta rest ih =>
      obtain ⟨first, later⟩ := List.forall_mem_cons.mp h
      rw [verifyDeltas, first]
      exact ih later

/-- Every delta of a verified response is the one that the chain records. -/
theorem matches_of_verify {msg : SyncResMsg}
    (verified : verify platform remoteMissingStates msg = .ok none) {address index : String}
    {data : Option Json} (carried : CarriesDelta platform msg address index data) :
    MatchesDelta platform remoteMissingStates address index data := by
  obtain ⟨rawMsg, deltas, items, item, rfl, hdeltas, hitems, member, haddress, hindex, rfl⟩ :=
    carried
  obtain ⟨deltas', hdeltas', verified⟩ := bind_eq_ok.mp verified
  obtain ⟨items', hitems', verified⟩ := bind_eq_ok.mp verified
  cases hdeltas.symm.trans hdeltas'
  cases hitems.symm.trans hitems'
  obtain ⟨item', address', index', same, haddress', hindex', recorded⟩ :=
    verifyDelta_eq_none (verifyDeltas_eq_none verified _ member)
  cases same
  cases haddress.symm.trans haddress'
  cases hindex.symm.trans hindex'
  exact recorded

/-- The bytecode of a verified response is the one that the chain records. -/
theorem matchesBytecode_of_verify {msg : SyncResMsg}
    (verified : verify platform remoteMissingStates msg = .ok none) {address : String}
    {bytecode : Option Json} (carried : CarriesBytecode msg address bytecode) :
    MatchesBytecode platform remoteMissingStates address bytecode := by
  obtain ⟨rawMsg, addressField, rfl, hfield, haddress, hbytecode⟩ := carried
  obtain ⟨addressField', hfield', verified⟩ := bind_eq_ok.mp verified
  obtain ⟨bytecode', hbytecode', verified⟩ := bind_eq_ok.mp verified
  obtain ⟨bytecodeHash, hhash, verified⟩ := bind_eq_ok.mp verified
  obtain ⟨address', haddress', verified⟩ := bind_eq_ok.mp verified
  cases hfield.symm.trans hfield'
  cases hbytecode.symm.trans hbytecode'
  cases haddress.symm.trans haddress'
  split at verified
  · cases verified
  · split at verified
    · cases verified
    · rename_i remoteHash hremote
      obtain ⟨remote, found, recorded⟩ := Option.bind_eq_some_iff.mp hremote
      split at verified
      · cases verified
      · rename_i same
        obtain ⟨digest, hdigest, rfl⟩ := differs_eq_false (Bool.eq_false_iff.mpr same)
        cases hdigest
        exact ⟨remote, remoteHash, found, recorded, hhash⟩

/-- Recorded bytecode passes under its own address. -/
theorem verify_of_matchesBytecode {rawMsg : List (String × Json)} {address : String}
    {addressField bytecode : Option Json} (hfield : resultField rawMsg "address" = .ok addressField)
    (haddress : keyOf addressField = .ok address)
    (hbytecode : resultField rawMsg "bytecode" = .ok bytecode)
    (recorded : MatchesBytecode platform remoteMissingStates address bytecode) :
    verify platform remoteMissingStates (.bcode rawMsg) = .ok none := by
  obtain ⟨remote, digest, hremote, hdigest, hhash⟩ := recorded
  have known := hasProperty_of_lookup hremote
  simp only [verify, hfield, hbytecode, hhash, haddress, bind, Except.bind, known, hremote,
    Option.bind_some, hdigest, differs_self, Bool.not_true, Bool.false_eq_true, if_false]
  rfl

end Sync
