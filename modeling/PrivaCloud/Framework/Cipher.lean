import Mathlib.Data.List.Basic

/-!
# Ciphers with several keys

Authenticated encryption, and a list of keys of which the first encrypts and all decrypt. Nothing here names
a particular program.
-/

namespace PrivaCloud.Framework

/-- An encrypted message is a token; what goes in beside the key and the message is the nonce. -/
structure Cipher (Key Nonce Plain Token : Type) where
  encrypt : Key → Nonce → Plain → Token
  decrypt : Key → Token → Option Plain

namespace Cipher

variable {Key Nonce Plain Token : Type} (cipher : Cipher Key Nonce Plain Token)

/-- A key opens the tokens that it encrypted and rejects those of the others. -/
structure Authentic : Prop where
  opens : ∀ key nonce plain, cipher.decrypt key (cipher.encrypt key nonce plain) = some plain
  rejects : ∀ key key' nonce plain, key' ≠ key → cipher.decrypt key' (cipher.encrypt key nonce plain) = none

def decryptAny (keys : List Key) (token : Token) : Option Plain :=
  keys.findSome? fun key => cipher.decrypt key token

variable {cipher}

theorem Authentic.key_unique (h : cipher.Authentic) {key key' : Key} {nonce : Nonce} {plain plain' : Plain}
    (hopens : cipher.decrypt key' (cipher.encrypt key nonce plain) = some plain') : key' = key := by
  by_contra hne
  rw [h.rejects key key' nonce plain hne] at hopens
  cases hopens

theorem Authentic.decryptAny_encrypt (h : cipher.Authentic) {keys : List Key} {key : Key} (hkey : key ∈ keys)
    (nonce : Nonce) (plain : Plain) :
    cipher.decryptAny keys (cipher.encrypt key nonce plain) = some plain := by
  have hfound : (cipher.decryptAny keys (cipher.encrypt key nonce plain)).isSome := by
    rw [decryptAny, List.findSome?_isSome_iff]
    exact ⟨key, hkey, by rw [h.opens]; rfl⟩
  obtain ⟨plain', hplain'⟩ := Option.isSome_iff_exists.mp hfound
  obtain ⟨key', -, hopens⟩ := List.exists_of_findSome?_eq_some hplain'
  have hkeys := h.key_unique hopens
  rw [hkeys, h.opens] at hopens
  rw [hplain', ← hopens]

end Cipher

end PrivaCloud.Framework
