import Mathlib.Data.List.Permutation
import Patom.Discord.Outbound
import Patom.Lark.Mention

open Patom.Foundation

namespace Patom.Mentions

theorem forall_perm {α : Type*} {l : List α} {P : List α → Prop}
    (h : ∀ order ∈ l.permutations', P order) : ∀ order : List α, order.Perm l → P order :=
  fun order hperm => h order (List.mem_permutations'.mpr hperm)

/-- Where the keys keep apart, mentions are replaced at once. -/
theorem inbound_at_once (text : List Char) (tokens : List Lark.AtToken) (botOpenId : String)
    (content : List Char) (mentions : List (Discord.DiscordUserId × String))
    (distinct_keys : (tokens.map (·.key)).Nodup)
    (distinct_ids : (mentions.map (·.1)).Nodup) :
    (Lark.RenderApart text tokens botOpenId → Lark.RendersAtOnce text tokens botOpenId) ∧
    (Lark.StripApart text tokens botOpenId → Lark.StripsAtOnce text tokens botOpenId) ∧
    (Discord.RenderApart content mentions → Discord.RendersAtOnce content mentions) :=
  ⟨Lark.rendersAtOnce_of_apart distinct_keys, Lark.stripsAtOnce_of_apart distinct_keys,
    Discord.rendersAtOnce_of_apart distinct_ids⟩

def alice : Lark.AtToken := ⟨"@_user_1", some "ou_alice", "Alice"⟩

def helper : Lark.AtToken := ⟨"@_user_2", some "ou_bot", "Helper"⟩

def tenth : Lark.AtToken := ⟨"@_user_10", some "ou_bob", "Bob"⟩

def ann : Discord.DiscordUserId := ⟨"8101", by decide, by decide, by decide, by decide⟩

def ben : Discord.DiscordUserId := ⟨"8102", by decide, by decide, by decide, by decide⟩

theorem inbound_at_once_hello :
    Lark.RendersAtOnce "@_user_2 hi @_user_1".toList [alice, helper] "ou_bot" ∧
    Lark.StripsAtOnce "@_user_2 hi @_user_1".toList [alice, helper] "ou_bot" ∧
    Discord.RendersAtOnce "<@!8101> <@8102>".toList [(ann, "Ann"), (ben, "Ben")] :=
  have h := inbound_at_once "@_user_2 hi @_user_1".toList [alice, helper] "ou_bot"
    "<@!8101> <@8102>".toList [(ann, "Ann"), (ben, "Ben")] (by decide) (by decide)
  ⟨h.1 (forall_perm (by decide +kernel)), h.2.1 (forall_perm (by decide +kernel)),
    h.2.2 (forall_perm (by decide +kernel))⟩

/-- A key that begins another one, and a name that is a marker. -/
theorem not_at_once :
    (¬ ∀ text tokens botOpenId, (tokens.map (·.key)).Nodup →
      Lark.RendersAtOnce text tokens botOpenId) ∧
    (¬ ∀ text tokens botOpenId, (tokens.map (·.key)).Nodup →
      Lark.StripsAtOnce text tokens botOpenId) ∧
    ¬ ∀ content mentions, (mentions.map (·.1)).Nodup →
      Discord.RendersAtOnce content mentions := by
  refine ⟨fun h => ?_, fun h => ?_, fun h => ?_⟩
  · exact absurd (h "@_user_10".toList [alice, tenth] "ou_bot" (by decide) _ .rfl)
      (by decide +kernel)
  · exact absurd (h "@_user_10".toList [alice, tenth] "ou_alice" (by decide) _ .rfl)
      (by decide +kernel)
  · exact absurd (h "<@8101>".toList [(ann, "<@8102>"), (ben, "Ben")] (by decide) _ .rfl)
      (by decide +kernel)

end Patom.Mentions
