/-
**Where paths lead.**

A path into a record passes the field that its first segment names, and goes on from there.  The
copy of a catalog item is a field of it, and a map, so what comes after its name is one key with all
its points.

Main results:

* `Field.walk_record` — a path passes the field that its first segment names;
* `CatalogItem.walk_copy` — **the copy of a catalog item is reached by its key**.
-/

import OfferLayout.Proofs.Text.Pieces
import OfferLayout.Record.Field

set_option relaxedAutoImplicit false
set_option autoImplicit false

namespace OfferLayout

namespace Field

theorem segments_of_ne_empty {path : String} (h : path ≠ "") :
    segments path = Text.fields '.' path.toList := by
  rw [segments, if_neg (by simpa using h)]

/-- A path that goes on after its first segment passes the field that this segment names. -/
theorem walk_record {fields : List (String × Field)} {name rest : String}
    (hname : '.' ∉ name.toList) (hrest : rest ≠ "") :
    (record fields).walk (name ++ "." ++ rest) =
      (fields.lookup name).bind fun field => field.walk rest := by
  have hpath : (name ++ "." ++ rest).toList = name.toList ++ '.' :: rest.toList := by simp
  have hne : name ++ "." ++ rest ≠ "" := by
    intro h
    simp [h] at hpath
  have hsegments : segments (name ++ "." ++ rest) = name.toList :: segments rest := by
    rw [segments_of_ne_empty hne, segments_of_ne_empty hrest, hpath, Text.fields_append,
      Text.fields_of_notMem hname, List.singleton_append]
  simp only [walk, hsegments, follow, String.ofList_toList]

end Field

/-- **The copy of a catalog item is reached by its key**, points included. -/
theorem CatalogItem.walk_copy (i : CatalogItem) {key : String} (h : key ≠ "") :
    i.asField.walk ("copy." ++ key) = i.copy.get? key := by
  have hpath : "copy." ++ key = "copy" ++ "." ++ key := rfl
  rw [hpath, asField, Field.walk_record (by decide) h]
  simp [List.lookup_append, lookup_textField, lookup_optionalField, Field.walk_map h]

end OfferLayout
