/-! # Names of days, months and halves of a day -/

namespace FieldRules.Calendar

/-- The days of the week from Monday on. -/
def weekdayNames : List String :=
  ["Monday", "Tuesday", "Wednesday", "Thursday", "Friday", "Saturday", "Sunday"]

/-- The months of the year. -/
def monthNames : List String :=
  ["January", "February", "March", "April", "May", "June", "July", "August", "September",
    "October", "November", "December"]

/-- The first three letters of a name. -/
def shortened (name : String) : String := String.ofList (name.toList.take 3)

/-- The short names of the days of the week. -/
def shortWeekdayNames : List String := weekdayNames.map shortened

/-- The short names of the months. -/
def shortMonthNames : List String := monthNames.map shortened

end FieldRules.Calendar
