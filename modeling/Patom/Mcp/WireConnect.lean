import Patom.Foundation.SignedText
import Patom.Mcp.Registry

open Patom.Foundation

namespace Patom.Mcp

def CONNECT_TOKEN_MAX_BYTES : Nat := 1024

abbrev Key := List UInt8

/-- What the signed links use of other packages: HMAC-SHA256, `Uuid::parse_str` and base64 in the
URL-safe alphabet without padding. -/
structure TokenCrates where
  mac : Key → List Char → Tag
  parseUuid : List Char → Option Uuid
  encodeBase64 : List UInt8 → List Char
  decodeBase64 : List Char → Option (List UInt8)

structure TokenCrates.Documented (crates : TokenCrates) : Prop where
  parse_display : ∀ u, crates.parseUuid u.chars = some u
  decode_encode : ∀ bytes, crates.decodeBase64 (crates.encodeBase64 bytes) = some bytes
  alphabet : ∀ bytes, ∀ c ∈ crates.encodeBase64 bytes, c.isAlphanum ∨ c = '-' ∨ c = '_'

structure Family (α : Type) where
  render : α → Int64 → List Char
  sign : Key → α → Int64 → List Char
  verify : Key → List Char → Int64 → Option α

/-- A token is good for its claims until it expires, and its payload is of them alone. -/
structure Family.Sound {α : Type} (family : Family α) : Prop where
  verify_sign : ∀ key claims exp now, family.verify key (family.sign key claims exp) now
    = if exp < now then none else some claims
  render_injective : ∀ claims exp claims' exp', family.render claims exp = family.render claims' exp' →
    claims = claims' ∧ exp = exp'

theorem Family.Sound.of_verify_sign {α : Type} {family : Family α} (token : List Char → List Char)
    (hsign : ∀ claims exp, family.sign [] claims exp = token (family.render claims exp))
    (h : ∀ key claims exp now, family.verify key (family.sign key claims exp) now
      = if exp < now then none else some claims) : family.Sound := by
  refine ⟨h, fun claims exp claims' exp' heq => ?_⟩
  have hsame : ∀ now, (if exp < now then none else some claims)
      = if exp' < now then none else some claims' := by
    intro now
    rw [← h [] claims exp now, ← h [] claims' exp' now, hsign, hsign, heq]
  have hle : ¬ exp' < exp := by
    intro hlt
    have := hsame exp
    rw [if_neg Int64.lt_irrefl, if_pos hlt] at this
    cases this
  have hle' : ¬ exp < exp' := by
    intro hlt
    have := hsame exp'
    rw [if_pos hlt, if_neg Int64.lt_irrefl] at this
    cases this
  have hclaims := hsame exp
  rw [if_neg Int64.lt_irrefl, if_neg hle] at hclaims
  exact ⟨Option.some.inj hclaims, Int64.le_antisymm (Int64.not_lt.mp hle) (Int64.not_lt.mp hle')⟩

def Plain (field : List Char) : Prop := ∀ c ∈ field, c.isAlphanum ∨ c = '-' ∨ c = '_'

namespace Plain

variable {field : List Char}

theorem not_colon (h : Plain field) : ':' ∉ field := fun hc => (by simpa using h ':' hc)

theorem not_dot (h : Plain field) : '.' ∉ field := fun hc => (by simpa using h '.' hc)

theorem uuid (u : Uuid) : Plain u.chars := by
  have hhex : ∀ top n, Plain (u.hex top n) := by
    intro top n c hc
    obtain ⟨j, -, rfl⟩ := List.mem_map.mp hc
    exact .inl (digitChar_isAlphanum (u.nibble_lt _))
  intro c hc
  simp only [Uuid.chars, List.mem_append, List.mem_cons] at hc
  rcases hc with (((hc | rfl | hc) | rfl | hc) | rfl | hc) | rfl | hc
  all_goals first | exact .inr (.inl rfl) | exact hhex _ _ c hc

theorem int (n : Int) : Plain (showInt n) := fun c hc =>
  (mem_showInt hc).imp (fun h => by simp [Char.isAlphanum, h]) .inl

theorem tag (t : Tag) : Plain (encode32 t) := by
  intro c hc
  obtain ⟨n, hn, rfl⟩ := mem_encodeHex hc
  exact .inl (digitChar_isAlphanum hn)

theorem utf8Size {c : Char} (h : c.isAlphanum ∨ c = '-' ∨ c = '_') : c.utf8Size = 1 := by
  rw [Char.utf8Size_eq_one_iff, UInt32.le_iff_toNat_le]
  obtain h | rfl | rfl := h
  · unfold Char.isAlphanum Char.isAlpha Char.isUpper Char.isLower Char.isDigit at h
    simp only [Bool.or_eq_true, Bool.and_eq_true, decide_eq_true_eq, ge_iff_le,
      UInt32.le_iff_toNat_le] at h
    simp at h ⊢
    omega
  · decide
  · decide

end Plain

structure IdText (ι : Type) where
  asStr : ι → String
  tryFrom : String → Except ParseError ι
  maxLen : Nat
  tryFrom_asStr : ∀ id, tryFrom (asStr id) = .ok id
  nonempty : ∀ id, asStr id ≠ ""
  plain : ∀ id, Plain (asStr id).toList
  bounded : ∀ id, (asStr id).utf8ByteSize ≤ maxLen

namespace IdText

variable {ι : Type} (text : IdText ι)

def field (id : ι) : List Char := (text.asStr id).toList

def parse (field : List Char) : Option ι := (text.tryFrom (String.ofList field)).toOption

theorem parse_field (id : ι) : text.parse (text.field id) = some id := by
  rw [parse, field, String.ofList_toList, text.tryFrom_asStr]
  rfl

theorem length_field (id : ι) : (text.field id).length ≤ text.maxLen := by
  refine Eq.trans_le ?_ (text.bounded id)
  rw [field, ← utf8ByteSize_ofList fun c hc => Plain.utf8Size (text.plain id c hc), String.ofList_toList]

theorem field_ne_nil (id : ι) : text.field id ≠ [] := fun h =>
  text.nonempty id (by rw [← String.ofList_toList (s := text.asStr id), ← field, h])

end IdText

theorem McpCatalogId.tryFrom_asStr (id : McpCatalogId) : McpCatalogId.tryFrom id.asStr = .ok id := by
  have hne : id.asStr ≠ "" := fun h => by
    have := id.starts
    rw [h] at this
    cases this
  rw [tryFrom, if_neg hne, dif_pos id.bounded, dif_pos id.starts, dif_pos id.allowed]

theorem isAlphanum_of_isLower {c : Char} (h : c.isLower) : c.isAlphanum := by
  unfold Char.isAlphanum Char.isAlpha
  rw [h, Bool.or_true, Bool.true_or]

theorem McpCatalogId.plain (id : McpCatalogId) : Plain id.asStr.toList := by
  have hstarts := id.starts
  have hallowed := id.allowed
  intro c hc
  cases h : id.asStr.toList with
  | nil => simp [h] at hc
  | cons first rest =>
    rw [h] at hc hstarts hallowed
    obtain rfl | hc := List.mem_cons.mp hc
    · exact .inl (isAlphanum_of_isLower hstarts)
    · have := List.all_eq_true.mp hallowed c hc
      simp only [catalogIdChar, Bool.or_eq_true, beq_iff_eq] at this
      obtain ((h | h) | h) | h := this
      · exact .inl (isAlphanum_of_isLower h)
      · exact .inl (by simp [Char.isAlphanum, h])
      · exact .inr (.inr h)
      · exact .inr (.inl h)

def catalogIdText : IdText McpCatalogId where
  asStr := (·.asStr)
  tryFrom := McpCatalogId.tryFrom
  maxLen := MCP_CATALOG_ID_MAX_LEN
  tryFrom_asStr := McpCatalogId.tryFrom_asStr
  nonempty id h := by
    have := id.starts
    rw [h] at this
    cases this
  plain := McpCatalogId.plain
  bounded := (·.bounded)

theorem length_intercalate (sep : Char) (fields : List (List Char)) :
    ([sep].intercalate fields).length ≤ (fields.map List.length).sum + fields.length := by
  induction fields with
  | nil => simp
  | cons field fields ih =>
    cases fields with
    | nil => simp
    | cons next rest =>
      rw [List.intercalate_cons_cons]
      simp only [List.length_append, List.length_cons, List.map_cons, List.sum_cons,
        List.length_nil] at ih ⊢
      omega

theorem mem_intercalate {sep c : Char} {fields : List (List Char)}
    (h : c ∈ [sep].intercalate fields) : c = sep ∨ ∃ field ∈ fields, c ∈ field := by
  induction fields with
  | nil => simp at h
  | cons field fields ih =>
    cases fields with
    | nil => exact .inr ⟨field, List.mem_cons_self, by simpa using h⟩
    | cons next rest =>
      rw [List.intercalate_cons_cons] at h
      simp only [List.mem_append, List.mem_singleton] at h
      obtain (h | h) | h := h
      · exact .inr ⟨field, List.mem_cons_self, h⟩
      · exact .inl h
      · exact (ih h).imp_right fun ⟨f, hf, hc⟩ => ⟨f, List.mem_cons_of_mem _ hf, hc⟩

structure ConnectClaims (ι : Type) where
  catalogId : McpCatalogId
  orgId : OrgId
  userId : UserId
  appId : ι
  chatId : ι
  replyTo : Option ι
  threadId : ThreadId
  agentId : AgentId

section Connect

variable {ι : Type} (crates : TokenCrates) (text : IdText ι)

def connectFields (claims : ConnectClaims ι) (expSecs : Int64) : List (List Char) :=
  [catalogIdText.field claims.catalogId, claims.orgId.chars, claims.userId.chars,
    text.field claims.appId, text.field claims.chatId, claims.replyTo.elim [] text.field,
    claims.threadId.chars, claims.agentId.chars, showInt expSecs.toInt]

def renderPayload (claims : ConnectClaims ι) (expSecs : Int64) : List Char :=
  [':'].intercalate (connectFields text claims expSecs)

def signConnect (key : Key) (claims : ConnectClaims ι) (expSecs : Int64) : List Char :=
  sign (crates.mac key) ':' (renderPayload text claims expSecs)

def parseReply (field : List Char) : Option (Option ι) :=
  if field.isEmpty then some none else (text.parse field).map some

def parseConnect (payload : List Char) (nowSecs : Int64) : Option (ConnectClaims ι) :=
  match payload.splitOn ':' with
  | [catalogRaw, orgRaw, userRaw, appRaw, chatRaw, replyRaw, threadRaw, agentRaw, expRaw] => do
    let catalogId ← catalogIdText.parse catalogRaw
    let orgId ← crates.parseUuid orgRaw
    let userId ← crates.parseUuid userRaw
    let appId ← text.parse appRaw
    let chatId ← text.parse chatRaw
    let replyTo ← parseReply text replyRaw
    let threadId ← crates.parseUuid threadRaw
    let agentId ← crates.parseUuid agentRaw
    let expSecs ← readI64 expRaw
    if expSecs < nowSecs then none
    else return ⟨catalogId, orgId, userId, appId, chatId, replyTo, threadId, agentId⟩
  | _ => none

def verifyConnect (key : Key) (token : List Char) (nowSecs : Int64) : Option (ConnectClaims ι) :=
  if CONNECT_TOKEN_MAX_BYTES < byteLen token then none
  else do
    let payload ← payloadOf (crates.mac key) ':' token
    parseConnect crates text payload nowSecs

def connectFamily : Family (ConnectClaims ι) :=
  ⟨renderPayload text, signConnect crates text, verifyConnect crates text⟩

variable {crates text}

theorem plain_connectFields (claims : ConnectClaims ι) (expSecs : Int64) :
    ∀ field ∈ connectFields text claims expSecs, Plain field := by
  have hreply : Plain (claims.replyTo.elim [] text.field) := by
    cases claims.replyTo with
    | none => exact fun c hc => absurd hc List.not_mem_nil
    | some id => exact text.plain id
  simp only [connectFields, List.forall_mem_cons, List.not_mem_nil, false_imp_iff, implies_true,
    and_true]
  exact ⟨claims.catalogId.plain, .uuid _, .uuid _, text.plain _, text.plain _, hreply, .uuid _,
    .uuid _, .int _⟩

theorem parseConnect_renderPayload (h : crates.Documented) (claims : ConnectClaims ι)
    (expSecs nowSecs : Int64) : parseConnect crates text (renderPayload text claims expSecs) nowSecs
      = if expSecs < nowSecs then none else some claims := by
  have hsplit : (renderPayload text claims expSecs).splitOn ':'
      = connectFields text claims expSecs :=
    List.splitOn_intercalate ':' (fun field hfield =>
      (plain_connectFields claims expSecs field hfield).not_colon) (List.cons_ne_nil _ _)
  have hreply : parseReply text (claims.replyTo.elim [] text.field) = some claims.replyTo := by
    cases claims.replyTo with
    | none => rfl
    | some id =>
      rw [Option.elim_some, parseReply, if_neg (by simpa using text.field_ne_nil id),
        text.parse_field]
      rfl
  rw [parseConnect, hsplit, connectFields]
  simp only [catalogIdText.parse_field, h.parse_display, text.parse_field, readI64_showInt, hreply,
    Option.bind_eq_bind, Option.bind_some, Option.pure_def]

theorem byteLen_signConnect (key : Key) (claims : ConnectClaims ι) (expSecs : Int64)
    (hlen : text.maxLen ≤ 128) :
    byteLen (signConnect crates text key claims expSecs) ≤ CONNECT_TOKEN_MAX_BYTES := by
  have hascii : ∀ c ∈ renderPayload text claims expSecs, c.utf8Size = 1 := by
    intro c hc
    obtain rfl | ⟨field, hfield, hc⟩ := mem_intercalate hc
    · decide
    · exact Plain.utf8Size (plain_connectFields claims expSecs field hfield c hc)
  have hreply : (claims.replyTo.elim [] text.field).length ≤ text.maxLen := by
    cases claims.replyTo with
    | none => exact Nat.zero_le _
    | some id => exact text.length_field id
  have hcatalog : (catalogIdText.field claims.catalogId).length ≤ 40 :=
    catalogIdText.length_field claims.catalogId
  have hpayload := length_intercalate ':' (connectFields text claims expSecs)
  have happ := text.length_field claims.appId
  have hchat := text.length_field claims.chatId
  have hexp := length_showInt expSecs
  simp only [connectFields, List.map_cons, List.map_nil, List.sum_cons, List.sum_nil,
    List.length_cons, List.length_nil, Uuid.length_chars] at hpayload
  rw [signConnect, sign, byteLen_append, byteLen_cons, byteLen_encode32,
    byteLen_of_ascii hascii, CONNECT_TOKEN_MAX_BYTES, show Char.utf8Size ':' = 1 from rfl,
    renderPayload, connectFields]
  omega

theorem sound_connectFamily (h : crates.Documented) (hlen : text.maxLen ≤ 128) :
    (connectFamily crates text).Sound := by
  refine .of_verify_sign (sign (crates.mac []) ':') (fun _ _ => rfl) fun key claims exp now => ?_
  change verifyConnect crates text key (signConnect crates text key claims exp) now = _
  rw [verifyConnect, if_neg (Nat.not_lt.mpr (byteLen_signConnect key claims exp hlen)), signConnect,
    payloadOf_sign rfl]
  exact parseConnect_renderPayload h claims exp now

end Connect

end Patom.Mcp
