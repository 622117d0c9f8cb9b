import ButtonFlow.Proofs.Json.Closing
import ButtonFlow.Proofs.Store.Agreement

/-!
# Files that are cut off

If writing a file of a store is interrupted, what is in the file is a beginning of what should
be there. Opening such a file never gives wrong entries: either the cut has left no text, and
the file is refused, or the store is empty.
-/

namespace ButtonFlow

open Json

namespace StoreText

theorem read_of_cut {entries : Dict String} {text : String}
    (hcut : text.toList <+: (write entries).toList) (hne : text ≠ write entries) :
    read text = [] := by
  have hwrite : (write entries).toList =
      Value.spread 0 (.object (Dict.mapValues .string entries)) := by
    rw [write, Value.spreadText, String.toList_ofList]
  have hdiffers : text.toList ≠ Value.spread 0 (.object (Dict.mapValues .string entries)) := by
    rw [← hwrite]
    intro heq
    exact hne (String.toList_inj.mp heq)
  rw [hwrite] at hcut
  unfold read
  cases hparse : Format.dict.parse text with
  | error f => rfl
  | ok held => exact absurd hparse (not_parse_of_cut hcut hdiffers)

end StoreText

namespace FileTree

theorem readText_of_cut {t : FileTree} {r : Route} {text : String} {n : Nat}
    (hlt : n < text.toUTF8.size) (h : t.contents r = .ok (text.toUTF8.extract 0 n)) :
    t.readText r = .error .invalidText ∨
      ∃ front, t.readText r = .ok front ∧ front.toList <+: text.toList ∧ front ≠ text := by
  rw [readText, h, ok_bind]
  cases hfront : String.fromUTF8? (text.toUTF8.extract 0 n) with
  | none => exact Or.inl rfl
  | some front =>
      have hbytes : front.toUTF8 = text.toUTF8.extract 0 n := by
        unfold String.fromUTF8? at hfront
        split at hfront
        · cases hfront
          rfl
        · cases hfront
      refine Or.inr ⟨front, rfl, ?_, ?_⟩
      · apply List.isPrefix_of_utf8Encode_append_eq_utf8Encode
          (text.toUTF8.extract n text.toUTF8.size)
        rw [String.utf8Encode_toList, String.utf8Encode_toList]
        change front.toUTF8 ++ _ = text.toUTF8
        rw [hbytes, ByteArray.extract_append_extract, Nat.min_eq_left (Nat.zero_le n),
          Nat.max_eq_right (Nat.le_of_lt hlt), ByteArray.extract_zero_size]
      · intro heq
        have hsize := congrArg ByteArray.size hbytes
        rw [heq, ByteArray.size_extract] at hsize
        omega

end FileTree

namespace Store

/-- However much of the file of a store is there, short of all of it, the file is refused as no
text or opens as an empty store. -/
theorem ofFile_of_torn {entries : Dict String} {route place : Route} {tree torn : FileTree}
    {full : ByteArray} {n : Nat} (hwritten : (persist entries route tree).1 = .ok ())
    (hfull : ((persist entries route tree).2.treeOr tree).contents route = .ok full)
    (hcut : n < full.size) (htorn : torn.contents place = .ok (full.extract 0 n)) :
    ofFile torn place = .error .invalidText ∨ ofFile torn place = .ok (.file [] place torn) := by
  have hbytes : full = (StoreText.write entries).toUTF8 := by
    have hcontents := FileTree.contents_of_writeBytes hwritten
    change (tree.writeBytes route _).2.contents route = .ok full at hfull
    rw [hcontents] at hfull
    exact (Except.ok.inj hfull).symm
  subst hbytes
  rcases FileTree.readText_of_cut hcut htorn with hrefused | ⟨front, hread, hprefix, hne⟩
  · left
    rw [ofFile, hrefused]
  · right
    rw [ofFile_of_readText hread, StoreText.read_of_cut hprefix hne]

/-- An entry whose text holds a brace, a quote and a character of two bytes. -/
def bracedEntries : Dict String := [("k", "\x7d\"é")]

/-- The bytes of these entries up to the middle of the last character of the text. -/
def bracedTree : FileTree :=
  FileTree.bare.put ["store.json"]
    (.file ((StoreText.write bracedEntries).toUTF8.extract 0 14))

theorem ofFile_of_torn_braced :
    (persist bracedEntries foreignRoute FileTree.bare).1 = .ok () ∧
      14 < (StoreText.write bracedEntries).toUTF8.size ∧
      (ofFile bracedTree foreignRoute = .error .invalidText ∨
        ofFile bracedTree foreignRoute = .ok (.file [] foreignRoute bracedTree)) := by
  have hwritten : (persist bracedEntries foreignRoute FileTree.bare).1 = .ok () := rfl
  have hfull : ((persist bracedEntries foreignRoute FileTree.bare).2.treeOr FileTree.bare).contents
      foreignRoute = .ok (StoreText.write bracedEntries).toUTF8 := rfl
  have hcut : 14 < (StoreText.write bracedEntries).toUTF8.size := by
    decide +kernel
  exact ⟨hwritten, hcut, ofFile_of_torn hwritten hfull hcut rfl⟩

end Store

end ButtonFlow
