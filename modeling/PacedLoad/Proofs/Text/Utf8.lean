import Mathlib.Data.String.Basic
import PacedLoad.Text.Lines

/-!
# The bytes of a text

The characters of a text stand one after the other in its bytes.  The first byte of
a character grows with the number of its bytes, and the following ones hold the rest
of the code point from the highest bits down, so that texts are ordered by their
bytes as by their code points.
-/

namespace PacedLoad.Text

theorem toList_loop (bytes : ByteArray) (i : Nat) (done : List UInt8) :
    ByteArray.toList.loop bytes i done = done.reverse ++ bytes.data.toList.drop i := by
  fun_induction ByteArray.toList.loop bytes i done with
  | case1 i done inside ih =>
    have bound : i < bytes.data.toList.length := by simpa using inside
    rw [ih, List.drop_eq_getElem_cons bound]
    simp [ByteArray.get!, inside]
  | case2 i done outside =>
    rw [List.drop_eq_nil_of_le (by simpa using outside)]
    simp

/-- The bytes of a text are those of its characters. -/
theorem bytesOf_eq (s : String) : bytesOf s = s.toList.flatMap String.utf8EncodeChar := by
  have bytes : s.toUTF8 = (s.toList.flatMap String.utf8EncodeChar).toByteArray :=
    String.utf8Encode_toList.symm
  rw [bytesOf, bytes, ByteArray.toList, toList_loop]
  simp

theorem bytesOf_append (s t : String) : bytesOf (s ++ t) = bytesOf s ++ bytesOf t := by
  simp [bytesOf_eq]

/-- A text is read back from its bytes. -/
theorem ofBytes?_bytesOf (s : String) : ofBytes? (bytesOf s) = some s := by
  have bytes : (⟨(bytesOf s).toArray⟩ : ByteArray) = s.toByteArray := by
    refine ByteArray.ext ?_
    rw [bytesOf, ByteArray.toList, toList_loop]
    simp
  rw [ofBytes?, bytes, String.fromUTF8?, dif_pos s.isValidUTF8]
  rfl

/-- A byte below 128 stands for a character of its own. -/
theorem toNat_of_mem_encodeChar {c : Char} {b : UInt8} (member : b ∈ String.utf8EncodeChar c)
    (ascii : b < 128) : c.toNat = b.toNat := by
  have below : b.toNat < 128 := ascii
  have value : c.toNat = c.val.toNat := rfl
  unfold String.utf8EncodeChar at member
  dsimp only at member
  split_ifs at member
  all_goals
    simp only [List.mem_cons, List.not_mem_nil, or_false, ← UInt8.toNat_inj, UInt8.toNat_ofNat']
      at member
    omega

theorem append_lt_append_left {p a b : List UInt8} (below : a < b) : p ++ a < p ++ b := by
  induction p with
  | nil => exact below
  | cons x p ih => exact List.cons_lt_cons_iff.mpr (.inr ⟨rfl, ih⟩)

/-- Characters differ in their order before one of them ends. -/
theorem encodeChar_lt {c d : Char} (below : c < d) (a b : List UInt8) :
    String.utf8EncodeChar c ++ a < String.utf8EncodeChar d ++ b := by
  have values : c.val.toNat < d.val.toNat := below
  have bound : d.val.toNat < 0x110000 := by
    rcases d.valid with low | ⟨-, high⟩
    · exact Nat.lt_trans low (by decide)
    · exact high
  unfold String.utf8EncodeChar
  generalize c.val.toNat = u at values
  generalize d.val.toNat = v at values bound
  -- the digits of a code point to the base 64
  have digits : ∀ n, n / 4096 = n / 64 / 64 ∧ n / 262144 = n / 64 / 64 / 64 := by omega
  simp only [digits]
  split_ifs
  all_goals
    simp only [List.cons_append, List.cons_lt_cons_iff, UInt8.lt_iff_toNat_lt, ← UInt8.toNat_inj,
      UInt8.toNat_ofNat']
    omega

/-- The bytes of characters are in the order of the characters. -/
theorem flatMap_encodeChar_lt {l m : List Char} (below : l < m) :
    l.flatMap String.utf8EncodeChar < m.flatMap String.utf8EncodeChar := by
  induction below with
  | @nil d m =>
    rw [List.flatMap_cons]
    cases bytes : String.utf8EncodeChar d with
    | nil => exact absurd bytes String.utf8EncodeChar_ne_nil
    | cons b rest => exact List.nil_lt_cons _ _
  | rel here => exact encodeChar_lt here _ _
  | cons _ ih => exact append_lt_append_left ih

/-- Texts are ordered by their bytes. -/
theorem lt_iff_bytesOf_lt {s t : String} : s < t ↔ bytesOf s < bytesOf t := by
  have mono : ∀ {s t : String}, s < t → bytesOf s < bytesOf t := by
    intro s t below
    rw [bytesOf_eq, bytesOf_eq]
    exact flatMap_encodeChar_lt (String.lt_iff_toList_lt.mp below)
  refine ⟨mono, fun below => ?_⟩
  rcases lt_trichotomy s t with less | rfl | more
  · exact less
  · exact absurd below (List.lt_irrefl _)
  · exact absurd (mono more) (List.lt_asymm below)

end PacedLoad.Text
