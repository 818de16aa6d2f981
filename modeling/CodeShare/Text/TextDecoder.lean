import CodeShare.Foundations.Transducers
import CodeShare.Text.Uri

/-! # TextDecoder

The decoder of the Encoding standard for UTF-8, with replacement and with its byte order mark ignored. Called with
`stream`, it keeps the octets of a code point that has begun; called without, it replaces them and starts afresh.
-/

namespace CodeShare
set_option autoImplicit false

/-- Octets to code points. -/
def utf8Transducer : Transducer (Option Utf8Pending) ℕ ℕ := ⟨utf8Step⟩

def byteOrderMark : ℕ := 0xFEFF

/-- The first code point is dropped when it is the mark; the state says whether there was a first one. -/
def bomTransducer : Transducer Bool ℕ ℕ where
  step bomSeen point := if bomSeen = false ∧ point = byteOrderMark then ([], true) else ([point], true)

structure TextDecoder where
  pending : Option Utf8Pending
  bomSeen : Bool

namespace TextDecoder

/-- `new TextDecoder()`. -/
def new : TextDecoder := ⟨none, false⟩

/-- The code points of some octets; at the end, U+FFFD for those that have begun. -/
def points (d : TextDecoder) (octets : List ℕ) (stream : Bool) : List ℕ :=
  let read := utf8Transducer.feed d.pending octets
  if stream || read.2.isNone then read.1 else read.1 ++ [replacementCharacter]

/-- `decode(octets, { stream })`. -/
def decode (d : TextDecoder) (octets : List ℕ) (stream : Bool) : JsString × TextDecoder :=
  let serialized := bomTransducer.feed d.bomSeen (d.points octets stream)
  (serialized.1.flatMap utf16Units,
    if stream then ⟨(utf8Transducer.feed d.pending octets).2, serialized.2⟩ else new)

/-- **Decoding in pieces**: what is decoded for the first octets and then for the others is what is decoded for all of
them. -/
theorem decode_append (d : TextDecoder) (octets octets' : List ℕ) (stream : Bool) :
    d.decode (octets ++ octets') stream =
      ((d.decode octets true).1 ++ ((d.decode octets true).2.decode octets' stream).1,
        ((d.decode octets true).2.decode octets' stream).2) := by
  have hpoints : d.points (octets ++ octets') stream =
      d.points octets true ++ (d.decode octets true).2.points octets' stream := by
    unfold points decode
    simp only [Transducer.feed_append, Bool.true_or, if_true]
    split_ifs
    · rfl
    · rw [List.append_assoc]
  have hpending : (utf8Transducer.feed d.pending (octets ++ octets')).2 =
      (utf8Transducer.feed (d.decode octets true).2.pending octets').2 := by
    rw [Transducer.feed_append]
    rfl
  rw [decode, hpoints, hpending, Transducer.feed_append, List.flatMap_append]
  rfl

example : (new.decode [0xEF, 0xBB, 0xBF, 0xC3] true).1 = [] := by decide

example : ((new.decode [0xC3] true).2.decode [0xA9, 0xE2, 0x82] false).1 = [0xE9, 0xFFFD] := by decide

end TextDecoder
end CodeShare
