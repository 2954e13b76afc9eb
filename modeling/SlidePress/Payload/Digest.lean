import SlidePress.Text.Basic

/-! The digest of a text, in hexadecimal digits. The digest itself is computed elsewhere, in steps
that can fail each: a context is allocated, fed with the text, and read off. -/
namespace SlidePress.Payload

/-- The steps of a digest that is computed elsewhere; none stands for a failure. -/
structure Digest (σ : Type) where
  allocate : Option σ
  update : σ → Text → Option σ
  finish : σ → Option Text

namespace Digest

def hexDigit (value : UInt8) : UInt8 :=
  if value < 10 then 48 + value else 87 + value

def hexDigits (bytes : Text) : Text :=
  bytes.flatMap fun (byte : UInt8) => [hexDigit (byte >>> 4), hexDigit (byte &&& 15)]

def hex {σ : Type} (digest : Digest σ) (text : Text) : Except Text Text :=
  match digest.allocate with
  | none => .error "Failed to allocate digest context"
  | some context =>
      match digest.update context text with
      | none => .error "SHA-256 digest update failed"
      | some fed =>
          match digest.finish fed with
          | none => .error "SHA-256 digest finalization failed"
          | some bytes => .ok (hexDigits bytes)

end Digest

end SlidePress.Payload
