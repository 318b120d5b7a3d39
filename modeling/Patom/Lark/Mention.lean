import Patom.Foundation.Substitution
import Patom.Text
import Patom.Types

open Patom.Foundation

namespace Patom.Lark

def LARK_ID_MAX_LEN : Nat := 128

@[ext] structure LarkId where
  asStr : String
  nonempty : asStr ≠ ""
  bounded : asStr.utf8ByteSize ≤ LARK_ID_MAX_LEN
  chars : asStr.toList.all fun c => c.isAlphanum || c = '-' || c = '_'

instance larkIdDecidableEq : DecidableEq LarkId := fun _ _ =>
  decidable_of_iff _ LarkId.ext_iff.symm

abbrev TenantKey := LarkId
abbrev LarkUserId := LarkId
abbrev LarkOpenId := LarkId

structure AtToken where
  key : String
  openId : Option String
  name : String
  deriving DecidableEq

def collapseWhitespace (text : List Char) : List Char :=
  [' '].intercalate ((text.splitOnP isWhitespace).filter fun word => word ≠ [])

def AtToken.placeholder (token : AtToken) : List Char := token.key.toList

def stripBotMentions (text : List Char) (tokens : List AtToken) (botOpenId : String) :
    List Char :=
  collapseWhitespace (tokens.foldl
    (fun out token =>
      if token.openId = some botOpenId then replaceAll token.placeholder [] out else out) text)

def replacement (botOpenId : String) (token : AtToken) : List Char :=
  if token.openId = some botOpenId || token.name = "" then [] else '@' :: token.name.toList

def renderInbound (text : List Char) (tokens : List AtToken) (botOpenId : String) : List Char :=
  collapseWhitespace (tokens.foldl
    (fun out token => replaceAll token.placeholder (replacement botOpenId token) out) text)

def stripped (botOpenId : String) (token : AtToken) : List Char :=
  if token.openId = some botOpenId then [] else token.placeholder

/-- Whatever the order of the mentions, every placeholder gives way to the text of its own. -/
def RendersAtOnce (text : List Char) (tokens : List AtToken) (botOpenId : String) : Prop :=
  ∀ order : List AtToken, order.Perm tokens → renderInbound text order botOpenId
    = collapseWhitespace (substitute AtToken.placeholder tokens (replacement botOpenId) text)

def StripsAtOnce (text : List Char) (tokens : List AtToken) (botOpenId : String) : Prop :=
  ∀ order : List AtToken, order.Perm tokens → stripBotMentions text order botOpenId
    = collapseWhitespace (substitute AtToken.placeholder tokens (stripped botOpenId) text)

def RenderApart (text : List Char) (tokens : List AtToken) (botOpenId : String) : Prop :=
  ∀ order : List AtToken, order.Perm tokens → apart AtToken.placeholder (replacement botOpenId)
    (pieces AtToken.placeholder tokens text) [] order

def StripApart (text : List Char) (tokens : List AtToken) (botOpenId : String) : Prop :=
  ∀ order : List AtToken, order.Perm tokens → apart AtToken.placeholder (fun _ => [])
    (pieces AtToken.placeholder tokens text) []
      (order.filter fun token => token.openId = some botOpenId)

variable {text : List Char} {tokens : List AtToken} {botOpenId : String}

theorem rendersAtOnce_of_apart (hkeys : (tokens.map (·.key)).Nodup)
    (h : RenderApart text tokens botOpenId) : RendersAtOnce text tokens botOpenId := by
  intro order hperm
  have hfold := foldl_replaceAll (h order hperm) (hperm.nodup_iff.mpr (List.Nodup.of_map _ hkeys))
  rw [flat_pieces] at hfold
  rw [renderInbound, hfold, substitute]
  refine congrArg collapseWhitespace (flat_congr fun token htoken => ?_)
  exact if_pos (hperm.mem_iff.mpr (mem_of_mem_holes htoken))

theorem stripsAtOnce_of_apart (hkeys : (tokens.map (·.key)).Nodup)
    (h : StripApart text tokens botOpenId) : StripsAtOnce text tokens botOpenId := by
  intro order hperm
  have hnodup := hperm.nodup_iff.mpr (List.Nodup.of_map _ hkeys)
  have hfold := foldl_replaceAll (h order hperm) (List.Nodup.filter _ hnodup)
  rw [flat_pieces, List.foldl_filter] at hfold
  simp only [decide_eq_true_eq] at hfold
  rw [stripBotMentions, hfold, substitute]
  refine congrArg collapseWhitespace (flat_congr fun token htoken => ?_)
  have hmem := hperm.mem_iff.mpr (mem_of_mem_holes htoken)
  simp only [partly, stripped, List.mem_filter, hmem, true_and, decide_eq_true_eq]

end Patom.Lark
