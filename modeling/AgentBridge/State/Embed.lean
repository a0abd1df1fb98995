import AgentBridge.State.Channels

/-! The built-in embedding of topics: words and trigrams hashed into buckets. It is what
channels are routed by without an embedding service, and whenever that fails. -/

namespace AgentBridge
namespace State

def localModel : Text := "local-hash-v1".toList

def fnv1a (bytes : List UInt8) : UInt64 :=
  bytes.foldl (fun hash b => (hash ^^^ b.toUInt64) * 0x100000001b3) 0xcbf29ce484222325

def normalize (v : List Float32) : List Float32 :=
  let norm := (v.foldl (fun sum x => sum + x * x) 0).sqrt
  if 0 < norm then v.map (· / norm) else v

/-- `windows(3)` -/
def trigrams : Text → List Text
  | a :: b :: c :: rest => [a, b, c] :: trigrams (b :: c :: rest)
  | _ => []

/-- The bucket of a feature gets the weight of its hash. -/
def addFeature (weight : UInt64 → Float32) (v : List Float32) (feature : Text) : List Float32 :=
  let h := fnv1a (feature.flatMap String.utf8EncodeChar)
  v.modify (h.toNat % v.length) (· + weight h)

def localEmbed (toLowercase : Text → Text) (isAlphanumeric : Char → Bool) (text : Text) (dim : Nat) :
    List Float32 :=
  let lower := toLowercase text
  let tokens := (lower.splitOnP fun c => !isAlphanumeric c).filter (!·.isEmpty)
  let chars := lower.filter fun c => isAlphanumeric c || c = ' '
  let sign (h : UInt64) : Float32 := if h >>> 63 = 1 then -1 else 1
  let v := tokens.foldl (addFeature sign) (List.replicate (max dim 1) 0)
  normalize ((trigrams chars).foldl (addFeature fun _ => 0.5) v)

/-- `embed` where no embedding service is configured, or it fails. -/
def embedLocally (toLowercase : Text → Text) (isAlphanumeric : Char → Bool) (dim : Nat) (text : Text) :
    List Float32 × Text :=
  (localEmbed toLowercase isAlphanumeric (Text.truncateBytes 16384 text) dim, localModel)

@[simp] theorem length_normalize (v : List Float32) : (normalize v).length = v.length := by
  unfold normalize
  dsimp only
  split_ifs <;> simp

@[simp] theorem length_addFeature (weight : UInt64 → Float32) (v : List Float32) (feature : Text) :
    (addFeature weight v feature).length = v.length := by
  simp [addFeature]

theorem length_foldl_addFeature (weight : UInt64 → Float32) (v : List Float32) (features : List Text) :
    (features.foldl (addFeature weight) v).length = v.length := by
  induction features generalizing v with
  | nil => rfl
  | cons feature features ih => rw [List.foldl_cons, ih, length_addFeature]

theorem length_localEmbed (toLowercase : Text → Text) (isAlphanumeric : Char → Bool) (text : Text) (dim : Nat) :
    (localEmbed toLowercase isAlphanumeric text dim).length = max dim 1 := by
  simp [localEmbed, length_foldl_addFeature]

end State

/-- The tables restricted to ASCII, and no embedding service. -/
def asciiSurroundings : Surroundings where
  toLowercase := Text.toAsciiLowercase
  isAlphanumeric := Text.isAsciiAlphanumeric
  embed := State.embedLocally Text.toAsciiLowercase Text.isAsciiAlphanumeric 256

end AgentBridge
