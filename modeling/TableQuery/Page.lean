import TableQuery.Error

namespace TableQuery

/-- A page of a list, counted from one, and how many rows a page holds. -/
structure Page where
  number : Int
  size : Int
deriving DecidableEq, Repr

/-- The page sizes for requests that name none or too large a one. -/
structure PageLimits where
  defaultSize : Int
  greatestSize : Int
deriving DecidableEq, Repr

namespace Page

/-- The size that stands for all rows. -/
def unlimitedSize : Int :=
  9999

def standardLimits : PageLimits :=
  ⟨10, unlimitedSize⟩

/-- The page asked for, with the size cut to the unlimited one. The rows before it must be
countable in 64 bits. -/
def make (number size : Int) : Except InvalidInput Page :=
  if number < 1 ∨ size < 1 then .error (.pageBelowOne number size)
  else
    let size := min size unlimitedSize
    if maxInt64 < (number - 1) * size then .error (.pageOutOfRange number size)
    else .ok ⟨number, size⟩

/-- The page for a request. What it leaves out or puts below one takes its default, and what is
too large the largest allowed value. -/
def ofRequest (number size : Option Int) (limits : PageLimits) : Page :=
  let chosen := match size with
    | some size => if 1 ≤ size then min size limits.greatestSize else limits.defaultSize
    | none => limits.defaultSize
  let size := max chosen 1
  let wanted := match number with
    | some number => if 1 ≤ number then number else 1
    | none => 1
  ⟨min wanted (maxInt64 / size), size⟩

def unlimited : Page :=
  ⟨1, unlimitedSize⟩

/-- How many rows stand before the page, held to 64 bits. -/
def offset (p : Page) : Int :=
  max minInt64 (min maxInt64 ((p.number - 1) * p.size))

def shape : Shape.RecordShape :=
  ⟨"Pagination", [.of "page" Shape.int64, .of "page_size" Shape.int64]⟩

def ofJson : Shape.Reader Page := fun j => do
  let values ← shape.values j
  let number ← values.required "page" Shape.int64
  let size ← values.required "page_size" Shape.int64
  pure ⟨number, size⟩

def toJson (p : Page) : Json :=
  .object [("page", .int p.number), ("page_size", .int p.size)]

end Page

/-- The rows of one page with what a reader of the list needs to move on. -/
structure Paged (α : Type) where
  items : List α
  total : Int
  page : Int
  pageSize : Int
  lastPage : Int
  hasNextPage : Bool
  hasPreviousPage : Bool
deriving Repr

namespace Paged

variable {α β : Type}

/-- How many pages of a size a number of rows fills, one at least. -/
def lastPageOf (total size : Int) : Int :=
  let size := max size 1
  max (total.tdiv size + if total.tmod size = 0 then 0 else 1) 1

def of (items : List α) (total : Int) (page : Page) : Paged α :=
  let last := lastPageOf total page.size
  ⟨items, total, page.number, page.size, last, page.number < last, 1 < page.number⟩

def map (f : α → β) (p : Paged α) : Paged β :=
  { p with items := p.items.map f }

def toJson (item : α → Json) (p : Paged α) : Json :=
  .object
    [("items", .list (p.items.map item)), ("total", .int p.total), ("page", .int p.page),
     ("page_size", .int p.pageSize), ("last_page", .int p.lastPage),
     ("has_next_page", .bool p.hasNextPage), ("has_previous_page", .bool p.hasPreviousPage)]

def shape (item : Shape.Reader α) : Shape.RecordShape :=
  ⟨"Paginated",
    [.of "items" (Shape.list item), .of "total" Shape.int64, .of "page" Shape.int64,
     .of "page_size" Shape.int64, .of "last_page" Shape.int64, .of "has_next_page" Shape.bool,
     .of "has_previous_page" Shape.bool]⟩

def ofJson (item : Shape.Reader α) : Shape.Reader (Paged α) := fun j => do
  let values ← (shape item).values j
  pure
    { items := ← values.required "items" (Shape.list item)
      total := ← values.required "total" Shape.int64
      page := ← values.required "page" Shape.int64
      pageSize := ← values.required "page_size" Shape.int64
      lastPage := ← values.required "last_page" Shape.int64
      hasNextPage := ← values.required "has_next_page" Shape.bool
      hasPreviousPage := ← values.required "has_previous_page" Shape.bool }

end Paged

end TableQuery
