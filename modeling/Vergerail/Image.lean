import Vergerail.Event

/-!
# Direct image requests

The request and the validated answer of `Codex::generate_image` in `src/image.rs`.
-/

namespace Vergerail

/-- `ImageBackground`. -/
inductive ImageBackground where
  | auto
  | transparent
  | opaqueBackground
  deriving DecidableEq, Repr

/-- `ImageSize`. -/
inductive ImageSize where
  | auto
  | square
  | landscape
  | portrait
  deriving DecidableEq, Repr

/-- `ImageQuality`. -/
inductive ImageQuality where
  | auto
  | low
  | medium
  | high
  deriving DecidableEq, Repr

/-- `DirectImageRequest`. -/
structure DirectImageRequest where
  prompt : String
  background : ImageBackground
  size : ImageSize
  quality : ImageQuality
  deriving DecidableEq, Repr

/-- `DirectImageResponse`: one validated PNG. -/
structure DirectImageResponse where
  base64 : String
  mediaType : String
  byteLength : Nat
  width : Nat
  height : Nat
  transparentBackground : Option Bool
  alphaCapable : Bool
  deriving DecidableEq, Repr

end Vergerail
