import MicroExpertRouter.Generation.Equivalence
import MicroExpertRouter.Session.Store

/-! A session as one long sequence: what its requests have ingested is what was said in it, without
the last token, at positions that count up from zero. -/
namespace MicroExpertRouter.Generation
open Scheduler (Row)
open Session (SessionStore SessionCheckout)

/-- The rows of tokens at consecutive positions. -/
def rowsOf (start : ℕ) (tokens : List UInt32) : List Row :=
  (tokens.zipIdx start).map fun entry => ⟨entry.1,entry.2⟩

@[simp] lemma rowsOf_nil (start : ℕ) : rowsOf start [] = [] := rfl

@[simp] lemma rowsOf_append (start : ℕ) (a b : List UInt32) :
    rowsOf start (a++b) = rowsOf start a++rowsOf (start+a.length) b := by
  simp [rowsOf, List.zipIdx_append]

@[simp] lemma rowsOf_cons (start : ℕ) (token : UInt32) (tokens : List UInt32) :
    rowsOf start (token::tokens) = ⟨token,start⟩::rowsOf (start+1) tokens := by
  simp [rowsOf, List.zipIdx_cons]

@[simp] lemma length_rowsOf (start : ℕ) (tokens : List UInt32) :
    (rowsOf start tokens).length = tokens.length := by simp [rowsOf]

/-- The session in which these tokens were said: all but the last are ingested. -/
def SessionKv.ofTokens (tokens : List UInt32) : SessionKv :=
  ⟨rowsOf 0 tokens.dropLast,tokens.dropLast.length,tokens.getLast?⟩

structure Request (π : Type) where
  promptIds : List UInt32
  requestedMax : ℕ
  maxTokensCap : ℕ
  params : π

def Request.maxTokens {π : Type} (self : Request π) : ℕ := max (min self.requestedMax self.maxTokensCap) 1

/-- How a request is served. -/
inductive Path
  | generate (config : Config)
  | stream

section Requests
variable {η π : Type} (model : RealModel η π)

def serve (path : Path) (request : Request π) (session : SessionKv) :
    Option (List UInt32 × SessionKv) :=
  match path with
  | .generate config =>
    generate model config request.promptIds request.maxTokens request.params session
  | .stream => streamTokens model request.promptIds request.maxTokens request.params session

variable {model}

/-- All paths are one response. -/
lemma serve_eq (path : Path) (request : Request π) (session : SessionKv) :
    serve model path request session =
      respond model request.promptIds request.maxTokens request.params session := by
  cases path with
  | generate config => exact generate_eq config _ _ session
  | stream => exact streamTokens_eq _ (le_max_right _ _) session

lemma ingestTokens_eq (kv : List Row) (pos : ℕ) (tokens : List UInt32) :
    ingestTokens model kv pos tokens = (kv++rowsOf pos tokens,pos+tokens.length) := by
  induction tokens generalizing kv pos with
  | nil => simp [ingestTokens]
  | cons token tokens ih =>
    have hstep : ingestTokens model kv pos (token::tokens) =
      ingestTokens model (kv++[⟨token,pos⟩]) (pos+1) tokens := rfl
    rw [hstep, ih]
    simp
    omega

/-- The decode steps ingest the last token of the prompt's answer and each of their own but the
last. -/
lemma decodeMany_history (params : π) (n : ℕ) : ∀ kv last pos,
    (model.decodeMany params n kv last pos).2 =
      kv++rowsOf pos (last::(model.decodeMany params n kv last pos).1).dropLast := by
  induction n with
  | zero =>
    intro kv last pos
    simp [RealModel.decodeMany]
  | succ n ih =>
    intro kv last pos
    obtain ⟨next,hstep⟩ : ∃ next, model.decodeStep kv last pos params =
      (next,kv++[⟨last,pos⟩]) := ⟨_,rfl⟩
    rw [RealModel.decodeMany, hstep]
    dsimp only
    rw [ih, List.dropLast_cons_of_ne_nil (List.cons_ne_nil _ _), rowsOf_cons, List.append_assoc]
    rfl

lemma dropLast_append_getLast? (tokens : List UInt32) :
    tokens.dropLast++tokens.getLast?.toList = tokens := by
  cases tokens using List.reverseRecOn with
  | nil => rfl
  | append_singleton tokens token => simp

/-- What the prompt leaves in a session. -/
lemma ingestPrompt_ofTokens (tokens promptIds : List UInt32) (params : π) (hprompt : promptIds ≠ []) :
    ∃ first, ingestPrompt model (SessionKv.ofTokens tokens) promptIds params =
      some ⟨rowsOf 0 (tokens++promptIds),(tokens++promptIds).length,first⟩ := by
  obtain ⟨front,final,rfl⟩ := (List.eq_nil_or_concat promptIds).resolve_left hprompt
  have hpending := congrArg (rowsOf 0) (dropLast_append_getLast? tokens)
  have hlength := congrArg List.length (dropLast_append_getLast? tokens)
  rw [rowsOf_append, Nat.zero_add] at hpending
  rw [List.length_append] at hlength
  unfold ingestPrompt SessionKv.ofTokens
  rw [List.concat_eq_append]
  simp only [ingestTokens_eq, hpending, hlength, List.dropLast_concat, List.getLast?_concat]
  refine ⟨model.sample (model.forward (rowsOf 0 tokens++rowsOf tokens.length front) final
    (tokens.length+front.length)) params (tokens.length+front.length),?_⟩
  simp [RealModel.forwardTokenHidden]
  omega

/-- A request says its prompt and its completion in a session. -/
theorem serve_ofTokens (path : Path) (request : Request π) (tokens : List UInt32)
    (hprompt : request.promptIds ≠ []) : ∃ completion,
      serve model path request (SessionKv.ofTokens tokens) = some (completion,
        SessionKv.ofTokens (tokens++(request.promptIds++completion))) ∧
      completion.length = request.maxTokens := by
  obtain ⟨first,hprompted⟩ := @ingestPrompt_ofTokens _ _ model tokens request.promptIds
    request.params hprompt
  rw [serve_eq, respond, hprompted]
  simp only [Option.map_some]
  have hlength := @RealModel.length_decodeMany _ _ model request.params
    (request.maxTokens-1) (rowsOf 0 (tokens++request.promptIds)) first
      (tokens++request.promptIds).length
  have hhistory := @decodeMany_history _ _ model request.params (request.maxTokens-1)
    (rowsOf 0 (tokens++request.promptIds)) first (tokens++request.promptIds).length
  have hmax : 1 ≤ request.maxTokens := le_max_right _ _
  generalize model.decodeMany request.params (request.maxTokens-1)
    (rowsOf 0 (tokens++request.promptIds)) first (tokens++request.promptIds).length = rest
      at hlength hhistory
  refine ⟨first::rest.1,?_,by simp [hlength]; omega⟩
  have hspoken : tokens++(request.promptIds++first::rest.1) =
      (tokens++request.promptIds)++first::rest.1 := by simp
  have hne : first::rest.1 ≠ [] := List.cons_ne_nil _ _
  have hkept : (rest.2,(tokens++request.promptIds).length+(request.maxTokens-1)) =
      (rowsOf 0 ((tokens++request.promptIds)++(first::rest.1).dropLast),
        ((tokens++request.promptIds)++(first::rest.1).dropLast).length) := by
    rw [hhistory, rowsOf_append, Nat.zero_add]
    simp [hlength, Nat.add_assoc]
  obtain ⟨hrows,hposition⟩ := Prod.mk.inj hkept
  unfold SessionKv.ofTokens
  rw [hspoken, List.dropLast_append_of_ne_nil hne, List.getLast?_append_of_ne_nil _ hne]
  rw [hrows, hposition]

end Requests

end MicroExpertRouter.Generation
