import FollowerSync.Proofs.Spellings
import FollowerSync.Wire.Message

set_option autoImplicit false

namespace FollowerSync.Wire
open Leader Decoder

instance : Readable Code where
  selfDelimiting := (selfDelimiting_takeIndex _).bind fun _ => selfDelimiting_pure _
  takes_encode code _ := by
    have lt : Code.all.idxOf code < Code.all.length := by cases code <;> decide
    have found : Code.all.getD (Code.all.idxOf code) .failed = code := by cases code <;> rfl
    have front : (takeIndex Code.all.length).Takes (encode code) (Code.all.idxOf code) :=
      (takes_takeIndex_iff (by decide)).mpr ⟨lt, rfl⟩
    exact front.bind_pure (congrArg pure found)

instance : Canonical Code := .of_spelled <| by
  refine .takeIndex_bind (by decide) fun i lt => ?_
  have numbered : Code.all.idxOf (Code.all.getD i .failed) = i := by
    revert i
    decide
  apply spelled_pure
  change encodeIndex i = encodeIndex (Code.all.idxOf (Code.all.getD i .failed))
  rw [numbered]

instance : Readable LockMode where
  selfDelimiting := (selfDelimiting_takeIndex _).bind fun _ => selfDelimiting_pure _
  takes_encode mode _ := by
    cases mode
    all_goals exact fun rest => rfl

instance : Canonical LockMode := .of_spelled <| by
  refine .takeIndex_bind (by decide) fun i lt => ?_
  match i, lt with
  | 0, _ => exact spelled_pure rfl
  | 1, _ => exact spelled_pure rfl

instance : Readable LockGrant where
  selfDelimiting := .decode_bind fun _ => .decode_bind fun _ => selfDelimiting_pure _
  takes_encode g fits := by
    change (encode g.followingTermId ++ encode g.lastLogTick).length < _ at fits
    exact .decode_bind fits fun fits => .decode_last fits rfl

instance : Canonical LockGrant :=
  .of_spelled (.decode_bind fun _ => .decode_bind fun _ => spelled_pure rfl)

instance : Readable AddFollowerRequest where
  selfDelimiting := .decode_bind fun _ => .decode_bind fun _ => .decode_bind fun _ =>
    .decode_bind fun _ => .decode_bind fun _ => .decode_bind fun _ => .decode_bind fun _ =>
    .decode_bind fun _ => selfDelimiting_pure _
  takes_encode r fits := by
    simp only [encode, List.append_assoc] at fits ⊢
    exact .decode_bind fits fun fits => .decode_bind fits fun fits => .decode_bind fits fun fits =>
      .decode_bind fits fun fits => .decode_bind fits fun fits => .decode_bind fits fun fits =>
      .decode_bind fits fun fits => .decode_last fits rfl

instance : Canonical AddFollowerRequest := .of_spelled <|
  .decode_bind fun _ => .decode_bind fun _ => .decode_bind fun _ => .decode_bind fun _ =>
  .decode_bind fun _ => .decode_bind fun _ => .decode_bind fun _ => .decode_bind fun _ =>
  spelled_pure rfl

instance : Readable LockRequest where
  selfDelimiting := .decode_bind fun _ => .decode_bind fun _ => .decode_bind fun _ =>
    .decode_bind fun _ => .decode_bind fun _ => .decode_bind fun _ => .decode_bind fun _ =>
    .decode_bind fun _ => .decode_bind fun _ => selfDelimiting_pure _
  takes_encode r fits := by
    simp only [encode, List.append_assoc] at fits ⊢
    exact .decode_bind fits fun fits => .decode_bind fits fun fits => .decode_bind fits fun fits =>
      .decode_bind fits fun fits => .decode_bind fits fun fits => .decode_bind fits fun fits =>
      .decode_bind fits fun fits => .decode_bind fits fun fits => .decode_last fits rfl

def encodeWithTtl (ttl : Bytes) (r : LockRequest) : Bytes :=
  encode r.database ++ encode r.lockId ++ encode r.collection ++ ttl ++ encode r.serverId ++
    encode r.clientId ++ encode r.rebootId ++ encode r.mode ++ encode r.wantFollowingTerm

theorem exists_ttl_of_takes {z : Bytes} {r : LockRequest} (takes : decode.Takes z r) :
    ∃ ttl, decode.Takes ttl r.ttl ∧ z = encodeWithTtl ttl r :=
  have spelled : (decode : Decoder LockRequest).Spelled
      (fun z r => ∃ ttl, decode.Takes ttl r.ttl ∧ z = encodeWithTtl ttl r) [] :=
    .decode_bind fun _ => .decode_bind fun _ => .decode_bind fun _ =>
    .bind Readable.selfDelimiting fun _ ttl front => .decode_bind fun _ => .decode_bind fun _ =>
    .decode_bind fun _ => .decode_bind fun _ => .decode_bind fun _ => spelled_pure ⟨ttl, front, rfl⟩
  spelled z r takes

instance : Readable Request where
  selfDelimiting := by
    refine (selfDelimiting_takeIndex 6).bind fun i => ?_
    split
    · exact .decode_bind fun _ => selfDelimiting_pure _
    · exact .decode_bind fun _ => selfDelimiting_pure _
    · exact .decode_bind fun _ => .decode_bind fun _ => .decode_bind fun _ => selfDelimiting_pure _
    · exact .decode_bind fun _ => selfDelimiting_pure _
    · exact .decode_bind fun _ => .decode_bind fun _ => selfDelimiting_pure _
    · exact .decode_bind fun _ => .decode_bind fun _ => selfDelimiting_pure _
  takes_encode request fits := by
    cases request with
    | newLockId database =>
      exact .takeIndex_bind (by decide) (by decide) fits fun fits => .decode_last fits rfl
    | acquireLock request =>
      exact .takeIndex_bind (by decide) (by decide) fits fun fits => .decode_last fits rfl
    | cancelLock database lockId clientId =>
      simp only [encode, List.append_assoc] at fits ⊢
      exact .takeIndex_bind (by decide) (by decide) fits fun fits => .decode_bind fits fun fits =>
        .decode_bind fits fun fits => .decode_last fits rfl
    | addFollower request =>
      exact .takeIndex_bind (by decide) (by decide) fits fun fits => .decode_last fits rfl
    | collectionCount database shard =>
      simp only [encode, List.append_assoc] at fits ⊢
      exact .takeIndex_bind (by decide) (by decide) fits fun fits => .decode_bind fits fun fits =>
        .decode_last fits rfl
    | recalculateCount database shard =>
      simp only [encode, List.append_assoc] at fits ⊢
      exact .takeIndex_bind (by decide) (by decide) fits fun fits => .decode_bind fits fun fits =>
        .decode_last fits rfl

/-- Only the time to live of a lock may be spelled in another way than it is written. -/
theorem eq_encode_or_exists_ttl {z : Bytes} {request : Request} (takes : decode.Takes z request) :
    z = encode request ∨ ∃ lock ttl, request = .acquireLock lock ∧ decode.Takes ttl lock.ttl ∧
      z = encodeIndex 1 ++ encodeWithTtl ttl lock := by
  have spelled : (decode : Decoder Request).Spelled (fun z request => z = encode request ∨
      ∃ lock ttl, request = .acquireLock lock ∧ decode.Takes ttl lock.ttl ∧
        z = encodeIndex 1 ++ encodeWithTtl ttl lock) [] := by
    refine .takeIndex_bind (by decide) fun i lt => ?_
    match i, lt with
    | 0, _ => exact .decode_bind fun _ => spelled_pure (.inl rfl)
    | 1, _ =>
      refine .bind Readable.selfDelimiting fun lock x front => spelled_pure (.inr ?_)
      obtain ⟨ttl, taken, rfl⟩ := exists_ttl_of_takes front
      exact ⟨lock, ttl, rfl, taken, rfl⟩
    | 2, _ =>
      exact .decode_bind fun _ => .decode_bind fun _ => .decode_bind fun _ =>
        spelled_pure (.inl rfl)
    | 3, _ => exact .decode_bind fun _ => spelled_pure (.inl rfl)
    | 4, _ => exact .decode_bind fun _ => .decode_bind fun _ => spelled_pure (.inl rfl)
    | 5, _ => exact .decode_bind fun _ => .decode_bind fun _ => spelled_pure (.inl rfl)
  exact spelled z request takes

/-- The body has the request with a time to live whose nanoseconds amount to a second or more. -/
def WithLooseTtl (request : Request) (body rest : Bytes) : Prop :=
  ∃ (lock : LockRequest) (secs : UInt64) (nanos : UInt32), request = .acquireLock lock ∧
    nanosPerSecond ≤ nanos.toNat ∧ secs.toNat * nanosPerSecond + nanos.toNat = lock.ttl.nanos ∧
    body = encodeIndex 1 ++ encodeWithTtl (encode secs ++ encode nanos) lock ++ rest ∧
    encode request = encodeIndex 1 ++ encodeWithTtl (encode lock.ttl) lock

instance : Readable Response where
  selfDelimiting := by
    refine (selfDelimiting_takeIndex 5).bind fun i => ?_
    split
    · exact .decode_bind fun _ => selfDelimiting_pure _
    · exact .decode_bind fun _ => selfDelimiting_pure _
    · exact selfDelimiting_pure _
    · exact .decode_bind fun _ => selfDelimiting_pure _
    · exact .decode_bind fun _ => .decode_bind fun _ => selfDelimiting_pure _
  takes_encode response fits := by
    cases response with
    | lockId id =>
      exact .takeIndex_bind (by decide) (by decide) fits fun fits => .decode_last fits rfl
    | lockGranted grant =>
      exact .takeIndex_bind (by decide) (by decide) fits fun fits => .decode_last fits rfl
    | ok => exact fun rest => rfl
    | count count =>
      exact .takeIndex_bind (by decide) (by decide) fits fun fits => .decode_last fits rfl
    | error code reason =>
      simp only [encode, List.append_assoc] at fits ⊢
      exact .takeIndex_bind (by decide) (by decide) fits fun fits => .decode_bind fits fun fits =>
        .decode_last fits rfl

instance : Canonical Response := .of_spelled <| by
  refine .takeIndex_bind (by decide) fun i lt => ?_
  match i, lt with
  | 0, _ => exact .decode_bind fun _ => spelled_pure rfl
  | 1, _ => exact .decode_bind fun _ => spelled_pure rfl
  | 2, _ => exact spelled_pure rfl
  | 3, _ => exact .decode_bind fun _ => spelled_pure rfl
  | 4, _ => exact .decode_bind fun _ => .decode_bind fun _ => spelled_pure rfl

theorem request_spelling {body rest : Bytes} {request : Request}
    (accepted : decode body = .ok (request, rest)) :
    body = encode request ++ rest ∨ WithLooseTtl request body rest := by
  obtain ⟨taken, rfl, takes⟩ := Readable.selfDelimiting _ _ _ accepted
  obtain rfl | ⟨lock, ttl, rfl, spelled, rfl⟩ := eq_encode_or_exists_ttl takes
  · exact .inl rfl
  obtain ⟨secs, nanos, same, rfl⟩ := takes_duration_iff.mp spelled
  by_cases loose : nanosPerSecond ≤ nanos.toNat
  · exact .inr ⟨lock, secs, nanos, rfl, loose, same, rfl, rfl⟩
  · rw [encode_duration_of_lt (by omega) same]
    exact .inl rfl

theorem Canonical.spelling {α : Type} [Encodable α] [Readable α] [Canonical α]
    {body rest : Bytes} {a : α} (accepted : decode body = .ok (a, rest)) :
    body = encode a ++ rest := by
  obtain ⟨taken, rfl, takes⟩ := Readable.selfDelimiting _ _ _ accepted
  rw [Canonical.eq_encode takes]

/-- Bodies of different messages differ where both have their message, and no message is left of
one that is cut. -/
structure ToldApart (α : Type) [Encodable α] : Prop where
  differ (body body' rest rest' : Bytes) (message message' : α) :
    decode body = .ok (message, rest) → decode body' = .ok (message', rest') →
      message ≠ message' → ∃ i, i + rest.length < body.length ∧
        i + rest'.length < body'.length ∧ body[i]? ≠ body'[i]?
  cut (message : α) (front : Bytes) : (encode message).length < UInt64.size →
    front <+: encode message → front ≠ encode message → ∃ malformed,
      (decode : Decoder α) front = .error malformed

theorem toldApart {α : Type} [Encodable α] [Readable α] : ToldApart α where
  differ _ _ _ _ _ _ accepted accepted' ne :=
    Readable.selfDelimiting.exists_getElem?_ne accepted accepted' ne
  cut message _ fits isCut short :=
    Readable.selfDelimiting.error_of_prefix (Readable.takes_encode message fits) isCut short

/-- Reading makes nothing up. The length of a text is written in 64 bits, so encodings are
supposed to stay below `2 ^ 64` bytes. -/
theorem accepted_bodies_spell_messages :
    (∀ (body rest : Bytes) (request : Request), decode body = .ok (request, rest) →
      body = encode request ++ rest ∨ WithLooseTtl request body rest) ∧
    (∀ (body rest : Bytes) (response : Response), decode body = .ok (response, rest) →
      body = encode response ++ rest) ∧
    (∀ (body rest : Bytes) (code : Code), decode body = .ok (code, rest) →
      body = encode code ++ rest) ∧
    ToldApart Request ∧ ToldApart Response ∧ ToldApart Code :=
  ⟨fun _ _ _ => request_spelling, fun _ _ _ => Canonical.spelling, fun _ _ _ => Canonical.spelling,
    toldApart, toldApart, toldApart⟩

def looseLock : LockRequest where
  database := "db"
  lockId := 7
  collection := "s1"
  ttl := ⟨2500000000, by decide⟩
  serverId := "s"
  clientId := "c"
  rebootId := 1
  mode := .hard
  wantFollowingTerm := true

def looseBody : Bytes :=
  encodeIndex 1 ++
    encodeWithTtl (encode (1 : UInt64) ++ encode (1500000000 : UInt32)) looseLock ++ [0]

theorem looseBody_spells_looseLock :
    decode looseBody = .ok (Request.acquireLock looseLock, [0]) ∧
    looseBody ≠ encode (Request.acquireLock looseLock) ++ [0] ∧
    WithLooseTtl (.acquireLock looseLock) looseBody [0] ∧
    (∃ i, i + 1 < looseBody.length ∧ i + 0 < (encode (Request.newLockId "db")).length ∧
      looseBody[i]? ≠ (encode (Request.newLockId "db"))[i]?) ∧
    ∃ malformed, (decode : Decoder Request) [0, 0, 0, 0, 2, 0] = .error malformed := by
  have accepted : decode looseBody = .ok (Request.acquireLock looseLock, [0]) := rfl
  have other : decode (encode (Request.newLockId "db")) = .ok (Request.newLockId "db", []) := rfl
  have loose : looseBody ≠ encode (Request.acquireLock looseLock) ++ [0] := by decide +kernel
  have isCut : [0, 0, 0, 0, 2, 0] <+: encode (Request.newLockId "db") := by decide +kernel
  obtain ⟨spelled, -, -, apart, -⟩ := accepted_bodies_spell_messages
  refine ⟨accepted, loose, (spelled _ _ _ accepted).resolve_left loose, ?_, ?_⟩
  · exact apart.differ _ _ _ _ _ _ accepted other nofun
  · exact apart.cut _ _ (by decide +kernel) isCut (by decide +kernel)

end FollowerSync.Wire
