import AtomaInfer.Attention.Forward
import Mathlib.Data.Rat.Defs

/-!
The Llama model (`llama.rs`) on the rows of its tensors. The layers of the tensor library that take each
row on its own are parameters, and the weights are theirs.

What the model computes for one sequence on its own, without a cache, is `Llama.logits`.
-/

namespace AtomaInfer

/--
`rotaryEmbed` is what `apply_rotary_embed` does to the row of a token at its position.
-/
structure CausalSelfAttention (ρ : Type) where
  qProj : ρ → ρ
  kProj : ρ → ρ
  vProj : ρ → ρ
  oProj : ρ → ρ
  rotaryEmbed : Nat → ρ → ρ
  attention : AttentionBackend ρ

structure Mlp (ρ : Type) where
  cFc1 : ρ → ρ
  cFc2 : ρ → ρ
  cProj : ρ → ρ
  silu : ρ → ρ

structure LlamaBlock (ρ : Type) where
  rms1 : ρ → ρ
  attn : CausalSelfAttention ρ
  rms2 : ρ → ρ
  mlp : Mlp ρ

/--
`lmHead` is the row of the logits in single precision.
-/
structure Llama (ρ : Type) where
  wte : Nat → ρ
  blocks : List (LlamaBlock ρ)
  lnF : ρ → ρ
  lmHead : ρ → List ℚ

variable {ρ : Type}

namespace CausalSelfAttention

variable (attn : CausalSelfAttention ρ)

def applyRotaryEmbed (x : List ρ) (inputPositions : List Nat) : Except CandleError (List ρ) :=
  if inputPositions.length = x.length then
    .ok (List.zipWith attn.rotaryEmbed inputPositions x)
  else
    .error <| .msg <|
      s!"index_positions must be of shape [batch_size, sequence_length] = [1, {x.length}], "
        ++ s!"got [1, {inputPositions.length}]"

def forward [Zero ρ] (x : List ρ) (inputPositions : List Nat) (kvCache : LayerCache ρ)
    (attentionMetadata : FlashAttentionMetadata)
    : Except CandleError (List ρ × LayerCache ρ) := do
  let q := x.map attn.qProj
  let k := x.map attn.kProj
  let v := x.map attn.vProj
  let q ← attn.applyRotaryEmbed q inputPositions
  let k ← attn.applyRotaryEmbed k inputPositions
  let (o, kvCache) ← attn.attention.forward q k v kvCache attentionMetadata
  return (o.map attn.oProj, kvCache)

end CausalSelfAttention

def Mlp.forward [Mul ρ] (mlp : Mlp ρ) (x : ρ) : ρ :=
  mlp.cProj (mlp.silu (mlp.cFc1 x) * mlp.cFc2 x)

def LlamaBlock.forward [Zero ρ] [Add ρ] [Mul ρ] (block : LlamaBlock ρ) (x : List ρ)
    (inputPositions : List Nat) (cache : LayerCache ρ) (attentionMetadata : FlashAttentionMetadata)
    : Except CandleError (List ρ × LayerCache ρ) := do
  let residual := x
  let x := x.map block.rms1
  let (x, cache) ← block.attn.forward x inputPositions cache attentionMetadata
  let x := List.zipWith (· + ·) x residual
  let residual := x
  let x := List.zipWith (· + ·) ((x.map block.rms2).map block.mlp.forward) residual
  return (x, cache)

namespace Llama

/--
The loop over the blocks, each with its cache.
-/
def forwardBlocks [Zero ρ] [Add ρ] [Mul ρ] (x : List ρ) (inputPositions : List Nat)
    (attentionMetadata : FlashAttentionMetadata) (blocks : List (LlamaBlock ρ))
    (kvCaches : List (LayerCache ρ)) : Except CandleError (List ρ × List (LayerCache ρ)) :=
  match blocks, kvCaches with
  | [], kvCaches => .ok (x, kvCaches)
  | _ :: _, [] => .error (.panic "index out of bounds")
  | block :: blocks, cache :: kvCaches => do
    let (x, cache) ← block.forward x inputPositions cache attentionMetadata
    let (x, kvCaches) ← forwardBlocks x inputPositions attentionMetadata blocks kvCaches
    return (x, cache :: kvCaches)

/--
`tensor.index_select(indices, 1)`
-/
def indexSelect (x : List ρ) (indices : List Nat) : Except CandleError (List ρ) :=
  indices.mapM fun i =>
    match x[i]? with
    | some row => .ok row
    | none => .error illegalMemoryAccess

variable (llama : Llama ρ)

def forward [Zero ρ] [Add ρ] [Mul ρ] (x inputPositions selectedTokenIndices : List Nat)
    (kvCaches : List (LayerCache ρ)) (attentionMetadata : FlashAttentionMetadata)
    : Except CandleError (List (List ℚ) × List (LayerCache ρ)) := do
  let x := x.map llama.wte
  let (x, kvCaches) ← forwardBlocks x inputPositions attentionMetadata llama.blocks kvCaches
  let x := x.map llama.lnF
  let x ← indexSelect x selectedTokenIndices
  return (x.map llama.lmHead, kvCaches)

end Llama

section Plain

namespace CausalSelfAttention

variable (attn : CausalSelfAttention ρ)

def queries (x : List ρ) : List ρ :=
  (x.map attn.qProj).mapIdx attn.rotaryEmbed

def keysValues (x : List ρ) : List (ρ × ρ) :=
  ((x.map attn.kProj).mapIdx attn.rotaryEmbed).zip (x.map attn.vProj)

/--
Each token sees itself and the ones before it.
-/
def plain (x : List ρ) : List ρ :=
  (attn.attention.attendCausally (attn.queries x) (attn.keysValues x)).map attn.oProj

theorem causal_queries : Causal attn.queries :=
  (Causal.id.map attn.qProj).mapIdx attn.rotaryEmbed

theorem causal_keysValues : Causal attn.keysValues :=
  ((Causal.id.map attn.kProj).mapIdx attn.rotaryEmbed).zipWith Prod.mk (Causal.id.map attn.vProj)

theorem causal_plain : Causal attn.plain :=
  (Causal.scan (fun _ => attn.attention.attend) attn.causal_queries attn.causal_keysValues).map
    attn.oProj

end CausalSelfAttention

variable [Add ρ] [Mul ρ]

namespace LlamaBlock

variable (block : LlamaBlock ρ)

def plain (x : List ρ) : List ρ :=
  let x := List.zipWith (· + ·) (block.attn.plain (x.map block.rms1)) x
  List.zipWith (· + ·) ((x.map block.rms2).map block.mlp.forward) x

/--
The keys and values of the layer.
-/
def keysValues (x : List ρ) : List (ρ × ρ) :=
  block.attn.keysValues (x.map block.rms1)

omit [Add ρ] [Mul ρ] in
theorem causal_keysValues : Causal block.keysValues :=
  block.attn.causal_keysValues.comp (Causal.id.map block.rms1)

theorem causal_plain : Causal block.plain := by
  have hattn : Causal fun x => List.zipWith (· + ·) (block.attn.plain (x.map block.rms1)) x :=
    (block.attn.causal_plain.comp (Causal.id.map block.rms1)).zipWith (· + ·) .id
  exact (((Causal.id.map block.rms2).map block.mlp.forward).zipWith (· + ·) .id).comp hattn

end LlamaBlock

namespace Llama

variable (llama : Llama ρ)

def plainBlocks (blocks : List (LlamaBlock ρ)) (x : List ρ) : List ρ :=
  blocks.foldl (fun x block => block.plain x) x

theorem causal_plainBlocks (blocks : List (LlamaBlock ρ)) : Causal (plainBlocks blocks) :=
  Causal.foldl (fun block : LlamaBlock ρ => block.causal_plain) blocks

/--
The logits after the last of some tokens.
-/
def logits (tokenIds : List Nat) : List ℚ :=
  match (plainBlocks llama.blocks (tokenIds.map llama.wte)).getLast? with
  | some row => llama.lmHead (llama.lnF row)
  | none => []

end Llama

end Plain

end AtomaInfer
