/-
# Digests of lists of messages

A digest maps messages of any length to values of one fixed length, so it cannot
be injective; what can be assumed of it is that it does not collide on the
messages at hand.

A list of messages is hashed in two layers: each message on its own, and then the
digests one behind the other.  Digests of one length can be cut apart again, so
the outer digest tells lists of messages apart exactly as far as no two of the
messages hashed on the way collide.  Nothing but the messages and their order
goes into it.
-/

import Mathlib.Data.List.Basic
import Mathlib.Data.Nat.Notation

namespace GitEventsRunner.Lib

/-- A message or a digest. -/
abbrev Bytes := List UInt8

/-- Pieces of one length that are put one behind the other can be cut apart
again. -/
theorem eq_of_flatMap_eq {α β : Type} {piece : α → List β} {size : ℕ} (hsize : 0 < size)
    (hlength : ∀ a, (piece a).length = size) {xs ys : List α}
    (hinj : ∀ a ∈ xs, ∀ b ∈ ys, piece a = piece b → a = b)
    (h : xs.flatMap piece = ys.flatMap piece) : xs = ys := by
  have hne : ∀ a as, (a :: as).flatMap piece ≠ [] := by
    intro a as hnil
    have hpiece := hlength a
    rw [(List.append_eq_nil_iff.mp hnil).1, List.length_nil] at hpiece
    omega
  induction xs generalizing ys with
  | nil =>
      cases ys with
      | nil => rfl
      | cons y ys => exact absurd h.symm (hne y ys)
  | cons x xs ih =>
      cases ys with
      | nil => exact absurd h (hne x xs)
      | cons y ys =>
          rw [List.flatMap_cons, List.flatMap_cons] at h
          obtain ⟨hhead, htail⟩ := List.append_inj h ((hlength x).trans (hlength y).symm)
          have hx : x = y := hinj x List.mem_cons_self y List.mem_cons_self hhead
          have hrest : xs = ys := by
            apply ih _ htail
            intro a ha b hb
            exact hinj a (List.mem_cons_of_mem x ha) b (List.mem_cons_of_mem y hb)
          rw [hx, hrest]

/-- A hash function whose values all have the same length. -/
structure Digest where
  size : ℕ
  hash : Bytes → Bytes
  size_pos : 0 < size
  length_hash : ∀ message, (hash message).length = size

namespace Digest

variable (D : Digest)

/-- No two different messages of the list have the same digest. -/
def CollisionFree (messages : List Bytes) : Prop :=
  ∀ a ∈ messages, ∀ b ∈ messages, D.hash a = D.hash b → a = b

instance (messages : List Bytes) : Decidable (D.CollisionFree messages) :=
  inferInstanceAs (Decidable (∀ a ∈ messages, ∀ b ∈ messages, D.hash a = D.hash b → a = b))

/-- The digests of the messages, one behind the other. -/
def joint (messages : List Bytes) : Bytes := messages.flatMap D.hash

/-- The digest of a list of messages. -/
def chain (messages : List Bytes) : Bytes := D.hash (D.joint messages)

/-- Everything that is hashed for the digest of a list of messages. -/
def hashed (messages : List Bytes) : List Bytes := D.joint messages :: messages

variable {D}

/-- The joint digests determine the messages, as far as these do not collide. -/
theorem joint_inj {xs ys : List Bytes} (hfree : D.CollisionFree (xs ++ ys))
    (h : D.joint xs = D.joint ys) : xs = ys := by
  apply eq_of_flatMap_eq D.size_pos D.length_hash _ h
  intro a ha b hb
  exact hfree a (List.mem_append_left _ ha) b (List.mem_append_right _ hb)

/-- The digest of a list tells it apart from another, if no messages collide that
are hashed for the two. -/
theorem chain_eq_iff {xs ys : List Bytes} (hfree : D.CollisionFree (D.hashed xs ++ D.hashed ys)) :
    D.chain xs = D.chain ys ↔ xs = ys := by
  constructor
  · intro h
    have hjoint : D.joint xs = D.joint ys :=
      hfree _ (by simp [hashed]) _ (by simp [hashed]) h
    apply joint_inj _ hjoint
    intro a ha b hb
    have hmem : ∀ c ∈ xs ++ ys, c ∈ D.hashed xs ++ D.hashed ys := by
      intro c hc
      rcases List.mem_append.mp hc with hc | hc
      · simp [hashed, hc]
      · simp [hashed, hc]
    exact hfree a (hmem a ha) b (hmem b hb)
  · intro h
    rw [h]

end Digest

/-! ## Hexadecimal text -/

namespace Hex

/-- The text of a byte. -/
def encodeByte (byte : UInt8) : List Char :=
  [Nat.digitChar (byte.toNat / 16), Nat.digitChar (byte.toNat % 16)]

/-- `hex::encode` -/
def encode (bytes : Bytes) : String := String.ofList (bytes.flatMap encodeByte)

theorem digitChar_inj : ∀ m < 16, ∀ n < 16, Nat.digitChar m = Nat.digitChar n → m = n := by
  decide

theorem encodeByte_inj {a b : UInt8} (h : encodeByte a = encodeByte b) : a = b := by
  simp only [encodeByte, List.cons.injEq, and_true] at h
  have ha := a.toNat_lt
  have hb := b.toNat_lt
  have hhigh := digitChar_inj _ (by omega) _ (by omega) h.1
  have hlow := digitChar_inj _ (by omega) _ (by omega) h.2
  apply UInt8.toNat_inj.mp
  omega

theorem encode_inj {a b : Bytes} (h : encode a = encode b) : a = b := by
  apply eq_of_flatMap_eq (by decide : 0 < 2) (fun _ => rfl) _ (String.ofList_inj.mp h)
  intro x _ y _ hxy
  exact encodeByte_inj hxy

end Hex

end GitEventsRunner.Lib
