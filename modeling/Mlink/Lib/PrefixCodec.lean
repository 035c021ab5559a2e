/-
# Codecs that read one value off the front of a string

A decoder that leaves the rest of its input alone is exact when it accepts the
encodings of valid values, whatever follows them, and nothing else. Then what it
accepts starts with the encoding of what it returns, and what it rejects starts
with no encoding at all.
-/

import Mathlib.Data.List.Basic

namespace PrefixCodec

variable {α β ε : Type}

/-- The decoder accepts exactly the encodings of valid values with anything after them. -/
structure Exact (encode : α → List β) (decode : List β → Except ε α) (Valid : α → Prop) :
    Prop where
  decode_append : ∀ {value}, Valid value → ∀ rest, decode (encode value ++ rest) = .ok value
  valid_of_decode : ∀ {data value}, decode data = .ok value → Valid value
  append_of_decode : ∀ {data value}, decode data = .ok value → ∃ rest, data = encode value ++ rest

variable {encode : α → List β} {decode : List β → Except ε α} {Valid : α → Prop}

/-- What was read off a string is its first part. -/
theorem Exact.encode_eq_take (exact : Exact encode decode Valid) {data : List β} {value : α}
    (taken : decode data = .ok value) : encode value = data.take (encode value).length := by
  obtain ⟨rest, hdata⟩ := exact.append_of_decode taken
  rw [hdata, List.take_left]

/-- Strings are rejected when no encoding starts them, and only then. -/
theorem Exact.rejects_iff (exact : Exact encode decode Valid) (data : List β) :
    (∃ error, decode data = .error error) ↔
      ¬ ∃ value rest, Valid value ∧ data = encode value ++ rest := by
  constructor
  · rintro ⟨error, herror⟩ ⟨value, rest, hvalid, hdata⟩
    rw [hdata, exact.decode_append hvalid rest] at herror
    cases herror
  · intro hnone
    cases hresult : decode data with
    | error error => exact ⟨error, rfl⟩
    | ok value =>
        obtain ⟨rest, hdata⟩ := exact.append_of_decode hresult
        exact absurd ⟨value, rest, exact.valid_of_decode hresult, hdata⟩ hnone

end PrefixCodec
