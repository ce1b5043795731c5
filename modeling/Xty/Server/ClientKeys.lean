import Xty.General.Separators
import Xty.Server.ClientTable

/-! The keys of the client table, which are made of an address and the numeral of a port. -/

namespace Xty.Server

open Xty.General.LittleEndian Xty.General.Decimal Xty.General.Separators Xty.Facility

def colon : UInt8 := 58

/-- The four bytes of a `struct in_addr`. -/
structure InAddr where
  a : UInt8
  b : UInt8
  c : UInt8
  d : UInt8
deriving DecidableEq, Repr

def byteToString (n : UInt8) : Bytes := digitLoop 3 n.toNat []

def inetNtop (x : InAddr) : Bytes :=
  byteToString x.a ++ dot :: (byteToString x.b ++ dot :: (byteToString x.c ++ dot ::
    byteToString x.d))

example : inetNtop ⟨10, 0, 0, 255⟩ = [49, 48, 46, 48, 46, 48, 46, 50, 53, 53] := by decide

structure Peer where
  addr : InAddr
  port : UInt16
deriving DecidableEq, Repr

def Peer.connection (p : Peer) (fd : ℕ) : Connection := ⟨fd, inetNtop p.addr, p.port⟩

lemma byteToString_numeral (n : UInt8) : IsNumeral (byteToString n) n.toNat := by
  obtain ⟨s, hnum, hs⟩ := digitLoop_spec (i := 3) (n := n.toNat) (by decide)
    (n.toNat_lt.trans (by decide))
  rwa [byteToString, hs, List.append_nil]

lemma byteToString_not_mem (n : UInt8) {c : UInt8} (hc : ¬ IsDigit c) : c ∉ byteToString n :=
  not_mem_of_digits (byteToString_numeral n).digits hc

lemma byteToString_injective : Function.Injective byteToString := by
  intro n m h
  have hn := (byteToString_numeral n).toDenotes
  rw [h] at hn
  exact UInt8.toNat_inj.mp (hn.unique (byteToString_numeral m).toDenotes)

lemma inetNtop_injective : Function.Injective inetNtop := by
  rintro ⟨a, b, c, d⟩ ⟨a', b', c', d'⟩ h
  have hdot : ∀ n, dot ∉ byteToString n := fun n => byteToString_not_mem n (by decide)
  rw [inetNtop, inetNtop, append_separator_inj (hdot _) (hdot _),
    append_separator_inj (hdot _) (hdot _), append_separator_inj (hdot _) (hdot _)] at h
  obtain ⟨ha, hb, hc, hd⟩ := h
  obtain rfl := byteToString_injective ha
  obtain rfl := byteToString_injective hb
  obtain rfl := byteToString_injective hc
  obtain rfl := byteToString_injective hd
  rfl

lemma colon_not_mem_inetNtop (x : InAddr) : colon ∉ inetNtop x := by
  have hcolon : ∀ n, colon ∉ byteToString n := fun n => byteToString_not_mem n (by decide)
  have hdot : colon ≠ dot := by decide
  simp [inetNtop, hcolon, hdot]

lemma ipPort_inj {ip ip' port port' : Bytes} (h : colon ∉ ip) (h' : colon ∉ ip') :
    ipPort ip port = ipPort ip' port' ↔ ip = ip' ∧ port = port' := by
  have hsep : ∀ x y, ipPort x y = x ++ colon :: y := fun x y => List.append_assoc x [colon] y
  rw [hsep, hsep, append_separator_inj h h']

/-- The two conversions are inverse to each other, and a key tells the address and the port. -/
theorem ports_printed_and_keys_apart :
    (∀ n : UInt16, printUint16 n = some (uint16ToString n) ∧
      IsNumeral (uint16ToString n) n.toNat ∧ stringToUint16 (uint16ToString n) = n) ∧
    (∀ n : UInt32, printUint32 n = some (uint32ToString n) ∧
      IsNumeral (uint32ToString n) n.toNat ∧ stringToUint32 (uint32ToString n) = n) ∧
    (∀ (ip₁ ip₂ : Bytes) (p₁ p₂ : UInt16), colon ∉ ip₁ → colon ∉ ip₂ →
      ipPort ip₁ (uint16ToString p₁) = ipPort ip₂ (uint16ToString p₂) → ip₁ = ip₂ ∧ p₁ = p₂) ∧
    ∀ (p q : Peer) (fd fd' : ℕ),
      (p.connection fd).clientIPPort = (q.connection fd').clientIPPort → p = q := by
  have hkeys : ∀ (ip₁ ip₂ : Bytes) (p₁ p₂ : UInt16), colon ∉ ip₁ → colon ∉ ip₂ →
      ipPort ip₁ (uint16ToString p₁) = ipPort ip₂ (uint16ToString p₂) → ip₁ = ip₂ ∧ p₁ = p₂ := by
    intro ip₁ ip₂ p₁ p₂ h₁ h₂ he
    obtain ⟨hip, hport⟩ := (ipPort_inj h₁ h₂).mp he
    exact ⟨hip, uint16ToString_injective hport⟩
  refine ⟨fun n => ?_, fun n => ?_, hkeys, fun p q fd fd' h => ?_⟩
  · obtain ⟨hrun, hnum⟩ := printUint16_spec n
    exact ⟨hrun, hnum, stringToUint16_of_denotes hnum.toDenotes⟩
  · obtain ⟨hrun, hnum⟩ := printUint32_spec n
    exact ⟨hrun, hnum, stringToUint32_of_denotes hnum.toDenotes⟩
  · obtain ⟨haddr, hport⟩ := hkeys _ _ _ _ (colon_not_mem_inetNtop _) (colon_not_mem_inetNtop _) h
    obtain ⟨x, n⟩ := p
    obtain ⟨y, m⟩ := q
    obtain rfl : x = y := inetNtop_injective haddr
    obtain rfl : n = m := hport
    rfl

end Xty.Server
