import Patom.Discord.Connection
import Patom.Foundation.Base64
import Patom.Lark.Mention
import Patom.Slack.SignedLinks

open Patom.Foundation

namespace Patom.Lark

open Patom.Mcp (IdText Plain)

/-- `parse_lark_id` -/
def LarkId.tryFrom (field raw : String) : Except ParseError LarkId :=
  if h : raw = "" then .error (.empty field)
  else if h' : raw.utf8ByteSize ≤ LARK_ID_MAX_LEN then
    if h'' : raw.toList.all fun c => c.isAlphanum || c = '-' || c = '_' then .ok ⟨raw, h, h', h''⟩
    else .error (.malformed field "non-alphanumeric character")
  else .error (.tooLong field LARK_ID_MAX_LEN raw.utf8ByteSize)

def larkIdText : IdText LarkId where
  asStr := (·.asStr)
  tryFrom := LarkId.tryFrom "lark_id"
  maxLen := LARK_ID_MAX_LEN
  tryFrom_asStr id := by
    rw [LarkId.tryFrom, dif_neg id.nonempty, dif_pos id.bounded, dif_pos id.chars]
  nonempty := (·.nonempty)
  plain id c hc := by simpa [or_assoc] using List.all_eq_true.mp id.chars c hc
  bounded := (·.bounded)

abbrev LarkConnectClaims := Mcp.ConnectClaims LarkId

end Patom.Lark

namespace Patom.Discord

open Patom.Mcp (IdText Plain)

def snowflakeText : IdText DiscordUserId where
  asStr := (·.asStr)
  tryFrom := DiscordUserId.tryFrom
  maxLen := DISCORD_SNOWFLAKE_MAX_LEN
  tryFrom_asStr id := by
    rw [DiscordUserId.tryFrom, dif_neg id.nonempty, dif_pos id.bounded, dif_pos id.digits,
      dif_pos id.fits]
  nonempty := (·.nonempty)
  plain id c hc := .inl (by simp [Char.isAlphanum, List.all_eq_true.mp id.digits c hc])
  bounded := (·.bounded)

abbrev DiscordConnectClaims := Mcp.ConnectClaims DiscordUserId

end Patom.Discord

namespace Patom.Mcp

variable (crates : TokenCrates)

def larkFamily : Family Lark.LarkConnectClaims := connectFamily crates Lark.larkIdText

def discordFamily : Family Discord.DiscordConnectClaims := connectFamily crates Discord.snowflakeText

/-- A family's tokens are never good for another's claims, under one key. -/
def Refuses {α β : Type} (family : Family α) (other : Family β) : Prop :=
  ∀ key claims exp now, family.verify key (other.sign key claims exp) now = none

/-- The links of the four families are sound, and no family of Slack takes the token of another. -/
theorem signedLinks_sound (h : crates.Documented) :
    (Slack.linkFamily crates).Sound ∧ (Slack.connectFamily crates).Sound ∧
    (larkFamily crates).Sound ∧ (discordFamily crates).Sound ∧
    Refuses (Slack.linkFamily crates) (Slack.connectFamily crates) ∧
    Refuses (Slack.linkFamily crates) (Slack.stateFamily crates) ∧
    Refuses (Slack.connectFamily crates) (Slack.linkFamily crates) ∧
    Refuses (Slack.connectFamily crates) (Slack.stateFamily crates) ∧
    Refuses (Slack.stateFamily crates) (Slack.linkFamily crates) ∧
    Refuses (Slack.stateFamily crates) (Slack.connectFamily crates) :=
  ⟨Slack.sound_linkFamily h, Slack.sound_connectFamily h, sound_connectFamily h (by decide),
    sound_connectFamily h (by decide), Slack.verifyLink_signConnect, Slack.verifyLink_signState,
    Slack.verifyConnect_signLink h, Slack.verifyConnect_signState, Slack.verifyState_signLink h,
    Slack.verifyState_signConnect⟩

def hexValue (digits : List Char) : Nat :=
  digits.foldl (fun n c => 16 * n + (nibble c).getD 0) 0

/-- The hyphenated form only. -/
def parseHyphenated (text : List Char) : Option Uuid :=
  let u : Uuid := BitVec.ofNat 128 (hexValue (text.filter (· ≠ '-')))
  if u.chars = text then some u else none

theorem foldl_hex (u : Uuid) {top n : Nat} (h : n ≤ top + 1) (init : Nat) :
    (u.hex top n).foldl (fun v c => 16 * v + (nibble c).getD 0) init
      = init * 16 ^ n + u.toNat / 16 ^ (top + 1 - n) % 16 ^ n := by
  induction n with
  | zero => simp [Uuid.hex, Nat.mod_one]
  | succ n ih =>
    have hsnoc : u.hex top (n + 1) = u.hex top n ++ [Nat.digitChar (u.nibble (top - n))] := by
      simp [Uuid.hex, List.range_succ]
    have hnibble : (nibble (Nat.digitChar (u.nibble (top - n)))).getD 0
        = u.toNat / 16 ^ (top - n) % 16 := by
      rw [nibble_digitChar (u.nibble_lt _)]
      rfl
    have hpow : u.toNat / 16 ^ (top + 1 - n) = u.toNat / 16 ^ (top - n) / 16 := by
      rw [Nat.div_div_eq_div_mul, ← pow_succ]
      congr 2
      omega
    rw [hsnoc, List.foldl_append, ih (by omega), List.foldl_cons, List.foldl_nil, hnibble, hpow,
      show top + 1 - (n + 1) = top - n by omega, pow_succ', Nat.mod_mul]
    ring

theorem hexValue_chars (u : Uuid) : hexValue (u.chars.filter (· ≠ '-')) = u.toNat := by
  have hhex : ∀ top n, (u.hex top n).filter (· ≠ '-') = u.hex top n := by
    intro top n
    refine List.filter_eq_self.mpr fun c hc => decide_eq_true ?_
    rintro rfl
    obtain ⟨j, -, hj⟩ := List.mem_map.mp hc
    have hall : ∀ a < 16, Nat.digitChar a ≠ '-' := by decide
    exact hall _ (u.nibble_lt _) hj
  have hfilter : u.chars.filter (· ≠ '-')
      = u.hex 31 8 ++ u.hex 23 4 ++ u.hex 19 4 ++ u.hex 15 4 ++ u.hex 11 12 := by
    simp only [Uuid.chars, List.filter_append, List.filter_cons, hhex]
    simp
  have hjoin : ∀ a n, u.toNat / 16 ^ (a + n) * 16 ^ n + u.toNat / 16 ^ a % 16 ^ n
      = u.toNat / 16 ^ a := by
    intro a n
    rw [pow_add, ← Nat.div_div_eq_div_mul, Nat.div_add_mod']
  have htop : u.toNat / 16 ^ 24 % 16 ^ 8 = u.toNat / 16 ^ 24 := by
    have := u.isLt
    exact Nat.mod_eq_of_lt (by omega)
  rw [hexValue, hfilter, List.foldl_append, List.foldl_append, List.foldl_append,
    List.foldl_append, foldl_hex u (by decide), foldl_hex u (by decide), foldl_hex u (by decide),
    foldl_hex u (by decide), foldl_hex u (by decide), Nat.zero_mul, Nat.zero_add, htop]
  rw [hjoin 20 4, hjoin 16 4, hjoin 12 4, hjoin 0 12, pow_zero, Nat.div_one]

def crates64 : TokenCrates where
  mac key payload := ⟨List.replicate 32 (BitVec.ofNat 8 (key.length + payload.length)), by simp⟩
  parseUuid := parseHyphenated
  encodeBase64 := Base64.encode
  decodeBase64 := Base64.decode

theorem documented_crates64 : crates64.Documented where
  parse_display u := by
    have hvalue : (BitVec.ofNat 128 (hexValue (u.chars.filter (· ≠ '-'))) : Uuid) = u := by
      rw [hexValue_chars, BitVec.ofNat_toNat, BitVec.setWidth_eq]
    change parseHyphenated u.chars = some u
    rw [parseHyphenated, hvalue, if_pos rfl]
  decode_encode := Base64.decode_encode
  alphabet := Base64.encode_alphabet

theorem signedLinks_sound_crates64 : Refuses (Slack.linkFamily crates64) (Slack.stateFamily crates64) :=
  (signedLinks_sound crates64 documented_crates64).2.2.2.2.2.1

end Patom.Mcp
