import RoadVisionAI.Auth.Security

/-!
# The laws of tokens

What `decode_token` makes of a token that the application has signed (`decodeToken_encode_iff`), by
the laws of the signing library; and a library that meets them, `clearJwt`.
-/

namespace RoadVisionAI.Auth

open Python Db

/-! ### Decoding -/

/-- A token signed with the key of the application decodes to its payload, if it is of the expected
type and neither early nor expired, and to nothing else. -/
theorem decodeToken_encode_iff {jwt : Jwt} {settings : Settings} (hjwt : jwt.Lawful settings)
    {payload payload' : Payload} {type : TokenType} {now : ℤ} :
    decodeToken jwt (jwt.encode payload settings.jwtSecretKey settings.jwtAlgorithm) type settings
        now = .ok payload' ↔
      payload' = payload ∧ payload.type = type ∧ payload.iat ≤ now ∧ now < payload.exp := by
  unfold decodeToken
  by_cases hiat : payload.iat ≤ now
  · by_cases hexp : now < payload.exp
    · rw [hjwt.decode_encode payload now hiat hexp]
      by_cases htype : payload.type = type
      · simp [htype, hiat, hexp, eq_comm]
      · simp [htype]
    · rw [hjwt.decode_expired payload now hiat (by omega)]
      simp [hexp]
  · rw [hjwt.decode_immature payload now (by omega)]
    simp [hiat]

section Decoding

variable {jwt : Jwt} {settings : Settings} {type : TokenType} {now : ℤ} {payload : Payload}
  {userId : Uuid} {mint : Mint}

/-- What is known of an access token that has been decoded. -/
theorem decodeToken_createAccessToken {role : String} (hjwt : jwt.Lawful settings)
    (h : decodeToken jwt (createAccessToken jwt userId role settings mint) type settings now
      = .ok payload) :
    type = .access ∧ payload.sub = userId.str ∧ mint.now ≤ now ∧
      now < mint.now + settings.accessTokenExpireMinutes * 60 := by
  obtain ⟨rfl, htype, hiat, hexp⟩ := (decodeToken_encode_iff hjwt).mp h
  exact ⟨htype.symm, rfl, hiat, hexp⟩

theorem decodeToken_createRefreshToken (hjwt : jwt.Lawful settings)
    (h : decodeToken jwt (createRefreshToken jwt userId settings mint) type settings now
      = .ok payload) :
    type = .refresh ∧ payload.sub = userId.str := by
  obtain ⟨rfl, htype, -, -⟩ := (decodeToken_encode_iff hjwt).mp h
  exact ⟨htype.symm, rfl⟩

end Decoding

/-! ### Tokens in the clear

A `Jwt` whose tokens spell out the claims, each character of a field after a `-` and each field
before a `.`, and which nobody signs: it meets the laws.
-/

def fieldText (field : String) : List Char := field.toList.flatMap (fun c => ['-', c]) ++ ['.']

def readFields (acc : List Char) : List Char → Option (List String)
  | [] => if acc = [] then some [] else none
  | '.' :: rest => (readFields [] rest).map (String.ofList acc.reverse :: ·)
  | '-' :: c :: rest => readFields (c :: acc) rest
  | _ => none

theorem readFields_flatMap_chars (cs acc rest : List Char) :
    readFields acc (cs.flatMap (fun c => ['-', c]) ++ rest)
      = readFields (cs.reverse ++ acc) rest := by
  induction cs generalizing acc with
  | nil => rfl
  | cons c cs ih =>
    rw [List.reverse_cons, List.append_assoc, List.singleton_append, ← ih (c :: acc)]
    rfl

theorem readFields_flatMap (fields : List String) :
    readFields [] (fields.flatMap fieldText) = some fields := by
  induction fields with
  | nil => rfl
  | cons field fields ih =>
    rw [List.flatMap_cons, fieldText, List.append_assoc, readFields_flatMap_chars]
    simp [readFields, ih]

def intText : ℤ → String
  | .ofNat n => String.ofList ('+' :: Nat.toDigits 10 n)
  | .negSucc n => String.ofList ('-' :: Nat.toDigits 10 n)

def readInt (text : String) : Option ℤ :=
  match text.toList with
  | '+' :: digits => some (.ofNat (Nat.ofDigitChars 10 digits 0))
  | '-' :: digits => some (.negSucc (Nat.ofDigitChars 10 digits 0))
  | _ => none

theorem readInt_intText (n : ℤ) : readInt (intText n) = some n := by
  cases n with
  | ofNat n => simp [intText, readInt, Nat.ofDigitChars_ten_toDigits]
  | negSucc n => simp [intText, readInt, Nat.ofDigitChars_ten_toDigits]

def claimFields (payload : Payload) : List String :=
  payload.sub :: payload.type.value :: intText payload.iat :: intText payload.exp :: payload.jti ::
    payload.role.toList

def readClaims : List String → Option Payload
  | sub :: type :: iat :: exp :: jti :: role => do
    let type ← [TokenType.access, TokenType.refresh].find? fun t => t.value = type
    let iat ← readInt iat
    let exp ← readInt exp
    return { sub, type, iat, exp, jti, role := role.head? }
  | _ => none

theorem readClaims_claimFields (payload : Payload) :
    readClaims (claimFields payload) = some payload := by
  obtain ⟨sub, type, iat, exp, jti, role⟩ := payload
  have htype : [TokenType.access, TokenType.refresh].find? (fun t => t.value = type.value)
      = some type := by
    cases type <;> decide
  simp only [readClaims, claimFields, htype, readInt_intText, Option.bind_eq_bind,
    Option.bind_some, Option.pure_def]
  cases role <;> rfl

def clearJwt : Jwt where
  encode payload _ _ := String.ofList ((claimFields payload).flatMap fieldText)
  decode token _ _ now :=
    match (readFields [] token.toList).bind readClaims with
    | some payload =>
      if now < payload.iat then .error .invalidToken
      else if payload.exp ≤ now then .error .expiredSignature
      else .ok payload
    | none => .error .invalidToken

theorem decode_clearJwt (payload : Payload) (key algorithm : String) (now : ℤ) :
    clearJwt.decode (clearJwt.encode payload key algorithm) key [algorithm] now
      = if now < payload.iat then .error .invalidToken
        else if payload.exp ≤ now then .error .expiredSignature
        else .ok payload := by
  simp only [clearJwt, String.toList_ofList, readFields_flatMap, Option.bind_some,
    readClaims_claimFields]

theorem lawful_clearJwt (settings : Settings) : clearJwt.Lawful settings where
  decode_encode payload now hiat hexp := by
    rw [decode_clearJwt, if_neg (by omega), if_neg (by omega)]
  decode_expired payload now hiat hexp := by
    rw [decode_clearJwt, if_neg (by omega), if_pos hexp]
  decode_immature payload now hiat := by
    rw [decode_clearJwt, if_pos hiat]

end RoadVisionAI.Auth
