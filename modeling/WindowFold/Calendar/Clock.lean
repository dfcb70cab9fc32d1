import WindowFold.Calendar

/-! Clocks of the zones of the world. Times are in minutes since the beginning
of 1970, by a clock or by universal time. -/
namespace WindowFold.Calendar

/-- When a clock is changed in a year. -/
structure ClockChange where
  /-- The month, from 1 to 12. -/
  month : Nat
  /-- Which one of the weekday in the month; the fifth is the last one. -/
  week : Nat
  /-- The weekday, from Sunday on, which is 0. -/
  weekday : Nat
  /-- Minutes after midnight, by the clock before the change. -/
  minute : Int

/-- The first of January 1970 was a Thursday. -/
def weekdayOf (day : Int) : Int := (day + 4) % 7

def ClockChange.minuteIn (change : ClockChange) (year : Int) : Int :=
  let month := 12 * year + change.month - 1
  let first := firstDay month
  let place := (change.weekday - weekdayOf first) % 7 + 7 * (change.week - 1)
  let place := if place < monthLength month then place else place - 7
  (first + place) * 1440 + change.minute

/-- Minutes that a clock is ahead in summer, and when summer begins and ends. -/
structure Summer where
  ahead : Int
  start : ClockChange
  stop : ClockChange

structure Clock where
  /-- Minutes that the clock is ahead of universal time, outside of summer. -/
  ahead : Int
  summer : Option Summer

namespace Clock

def universal : Clock := ⟨0, none⟩

/-- Minutes that the clock is ahead at a time. Summer may go beyond the year's end. -/
def aheadAt (clock : Clock) (universal : Int) : Int :=
  match clock.summer with
  | none => clock.ahead
  | some summer =>
    let year := yearOf (monthOfDay ((universal + clock.ahead) / 1440))
    let start := summer.start.minuteIn year - clock.ahead
    let stop := summer.stop.minuteIn year - summer.ahead
    let inSummer :=
      if start < stop then start ≤ universal && universal < stop
      else !(stop ≤ universal && universal < start)
    if inSummer then summer.ahead else clock.ahead

/-- The time at which the clock shows a time; none if it never does, or twice. -/
def universalOf? (clock : Clock) (shown : Int) : Option Int :=
  let times := (clock.ahead :: clock.summer.toList.map (·.ahead)).map (shown - ·)
  match times.filter fun time => time + clock.aheadAt time = shown with
  | [time] => some time
  | _ => none

/-- Zones by name, with those that share a clock together. -/
def zones : List (Clock × List String) := [
  (⟨-720, none⟩,
    ["Etc/GMT+12"]),
  (⟨-660, none⟩,
    ["Etc/GMT+11", "Pacific/Midway", "Pacific/Niue", "Pacific/Pago_Pago", "Pacific/Samoa",
      "US/Samoa"]),
  (⟨-600, some ⟨-540, ⟨3, 2, 0, 120⟩, ⟨11, 1, 0, 120⟩⟩⟩,
    ["America/Adak", "America/Atka", "US/Aleutian"]),
  (⟨-600, none⟩,
    ["Etc/GMT+10", "HST", "Pacific/Honolulu", "Pacific/Johnston", "Pacific/Rarotonga",
      "Pacific/Tahiti", "US/Hawaii"]),
  (⟨-570, none⟩,
    ["Pacific/Marquesas"]),
  (⟨-540, some ⟨-480, ⟨3, 2, 0, 120⟩, ⟨11, 1, 0, 120⟩⟩⟩,
    ["America/Anchorage", "America/Juneau", "America/Metlakatla", "America/Nome", "America/Sitka",
      "America/Yakutat", "US/Alaska"]),
  (⟨-540, none⟩,
    ["Etc/GMT+9", "Pacific/Gambier"]),
  (⟨-480, some ⟨-420, ⟨3, 2, 0, 120⟩, ⟨11, 1, 0, 120⟩⟩⟩,
    ["America/Ensenada", "America/Los_Angeles", "America/Santa_Isabel", "America/Tijuana",
      "America/Vancouver", "Canada/Pacific", "Mexico/BajaNorte", "PST8PDT", "US/Pacific"]),
  (⟨-480, none⟩,
    ["Etc/GMT+8", "Pacific/Pitcairn"]),
  (⟨-420, some ⟨-360, ⟨3, 2, 0, 120⟩, ⟨11, 1, 0, 120⟩⟩⟩,
    ["America/Boise", "America/Cambridge_Bay", "America/Ciudad_Juarez", "America/Denver",
      "America/Edmonton", "America/Inuvik", "America/Shiprock", "America/Yellowknife",
      "Canada/Mountain", "MST7MDT", "Navajo", "US/Mountain"]),
  (⟨-420, none⟩,
    ["America/Creston", "America/Dawson", "America/Dawson_Creek", "America/Fort_Nelson",
      "America/Hermosillo", "America/Mazatlan", "America/Phoenix", "America/Whitehorse",
      "Canada/Yukon", "Etc/GMT+7", "MST", "Mexico/BajaSur", "US/Arizona"]),
  (⟨-360, some ⟨-300, ⟨3, 2, 0, 120⟩, ⟨11, 1, 0, 120⟩⟩⟩,
    ["America/Chicago", "America/Indiana/Knox", "America/Indiana/Tell_City", "America/Knox_IN",
      "America/Matamoros", "America/Menominee", "America/North_Dakota/Beulah",
      "America/North_Dakota/Center", "America/North_Dakota/New_Salem", "America/Ojinaga",
      "America/Rainy_River", "America/Rankin_Inlet", "America/Resolute", "America/Winnipeg",
      "CST6CDT", "Canada/Central", "US/Central", "US/Indiana-Starke"]),
  (⟨-360, some ⟨-300, ⟨9, 1, 6, 1320⟩, ⟨4, 1, 6, 1320⟩⟩⟩,
    ["Chile/EasterIsland", "Pacific/Easter"]),
  (⟨-360, none⟩,
    ["America/Bahia_Banderas", "America/Belize", "America/Chihuahua", "America/Costa_Rica",
      "America/El_Salvador", "America/Guatemala", "America/Managua", "America/Merida",
      "America/Mexico_City", "America/Monterrey", "America/Regina", "America/Swift_Current",
      "America/Tegucigalpa", "Canada/Saskatchewan", "Etc/GMT+6", "Mexico/General",
      "Pacific/Galapagos"]),
  (⟨-300, some ⟨-240, ⟨3, 2, 0, 0⟩, ⟨11, 1, 0, 60⟩⟩⟩,
    ["America/Havana", "Cuba"]),
  (⟨-300, some ⟨-240, ⟨3, 2, 0, 120⟩, ⟨11, 1, 0, 120⟩⟩⟩,
    ["America/Detroit", "America/Fort_Wayne", "America/Grand_Turk", "America/Indiana/Indianapolis",
      "America/Indiana/Marengo", "America/Indiana/Petersburg", "America/Indiana/Vevay",
      "America/Indiana/Vincennes", "America/Indiana/Winamac", "America/Indianapolis",
      "America/Iqaluit", "America/Kentucky/Louisville", "America/Kentucky/Monticello",
      "America/Louisville", "America/Montreal", "America/Nassau", "America/New_York",
      "America/Nipigon", "America/Pangnirtung", "America/Port-au-Prince", "America/Thunder_Bay",
      "America/Toronto", "Canada/Eastern", "EST5EDT", "US/East-Indiana", "US/Eastern",
      "US/Michigan"]),
  (⟨-300, none⟩,
    ["America/Atikokan", "America/Bogota", "America/Cancun", "America/Cayman",
      "America/Coral_Harbour", "America/Eirunepe", "America/Guayaquil", "America/Jamaica",
      "America/Lima", "America/Panama", "America/Porto_Acre", "America/Rio_Branco", "Brazil/Acre",
      "EST", "Etc/GMT+5", "Jamaica"]),
  (⟨-240, some ⟨-180, ⟨3, 2, 0, 120⟩, ⟨11, 1, 0, 120⟩⟩⟩,
    ["America/Glace_Bay", "America/Goose_Bay", "America/Halifax", "America/Moncton",
      "America/Thule", "Atlantic/Bermuda", "Canada/Atlantic"]),
  (⟨-240, some ⟨-180, ⟨9, 1, 6, 1440⟩, ⟨4, 1, 6, 1440⟩⟩⟩,
    ["America/Santiago", "Chile/Continental"]),
  (⟨-240, none⟩,
    ["America/Anguilla", "America/Antigua", "America/Aruba", "America/Barbados",
      "America/Blanc-Sablon", "America/Boa_Vista", "America/Campo_Grande", "America/Caracas",
      "America/Cuiaba", "America/Curacao", "America/Dominica", "America/Grenada",
      "America/Guadeloupe", "America/Guyana", "America/Kralendijk", "America/La_Paz",
      "America/Lower_Princes", "America/Manaus", "America/Marigot", "America/Martinique",
      "America/Montserrat", "America/Port_of_Spain", "America/Porto_Velho", "America/Puerto_Rico",
      "America/Santo_Domingo", "America/St_Barthelemy", "America/St_Kitts", "America/St_Lucia",
      "America/St_Thomas", "America/St_Vincent", "America/Tortola", "America/Virgin", "Brazil/West",
      "Etc/GMT+4"]),
  (⟨-210, some ⟨-150, ⟨3, 2, 0, 120⟩, ⟨11, 1, 0, 120⟩⟩⟩,
    ["America/St_Johns", "Canada/Newfoundland"]),
  (⟨-180, some ⟨-120, ⟨3, 2, 0, 120⟩, ⟨11, 1, 0, 120⟩⟩⟩,
    ["America/Miquelon"]),
  (⟨-180, none⟩,
    ["America/Araguaina", "America/Argentina/Buenos_Aires", "America/Argentina/Catamarca",
      "America/Argentina/ComodRivadavia", "America/Argentina/Cordoba", "America/Argentina/Jujuy",
      "America/Argentina/La_Rioja", "America/Argentina/Mendoza", "America/Argentina/Rio_Gallegos",
      "America/Argentina/Salta", "America/Argentina/San_Juan", "America/Argentina/San_Luis",
      "America/Argentina/Tucuman", "America/Argentina/Ushuaia", "America/Asuncion", "America/Bahia",
      "America/Belem", "America/Buenos_Aires", "America/Catamarca", "America/Cayenne",
      "America/Cordoba", "America/Coyhaique", "America/Fortaleza", "America/Jujuy",
      "America/Maceio", "America/Mendoza", "America/Montevideo", "America/Paramaribo",
      "America/Punta_Arenas", "America/Recife", "America/Rosario", "America/Santarem",
      "America/Sao_Paulo", "Antarctica/Palmer", "Antarctica/Rothera", "Atlantic/Stanley",
      "Brazil/East", "Etc/GMT+3"]),
  (⟨-120, some ⟨-60, ⟨3, 5, 0, -60⟩, ⟨10, 5, 0, 0⟩⟩⟩,
    ["America/Godthab", "America/Nuuk", "America/Scoresbysund"]),
  (⟨-120, none⟩,
    ["America/Noronha", "Atlantic/South_Georgia", "Brazil/DeNoronha", "Etc/GMT+2"]),
  (⟨-60, some ⟨0, ⟨3, 5, 0, 0⟩, ⟨10, 5, 0, 60⟩⟩⟩,
    ["Atlantic/Azores"]),
  (⟨-60, none⟩,
    ["Atlantic/Cape_Verde", "Etc/GMT+1"]),
  (⟨0, some ⟨60, ⟨3, 5, 0, 60⟩, ⟨10, 5, 0, 120⟩⟩⟩,
    ["Atlantic/Canary", "Atlantic/Faeroe", "Atlantic/Faroe", "Atlantic/Madeira", "Eire",
      "Europe/Belfast", "Europe/Dublin", "Europe/Guernsey", "Europe/Isle_of_Man", "Europe/Jersey",
      "Europe/Lisbon", "Europe/London", "GB", "GB-Eire", "Portugal", "WET"]),
  (⟨0, some ⟨120, ⟨3, 5, 0, 60⟩, ⟨10, 5, 0, 180⟩⟩⟩,
    ["Antarctica/Troll"]),
  (⟨0, none⟩,
    ["Africa/Abidjan", "Africa/Accra", "Africa/Bamako", "Africa/Banjul", "Africa/Bissau",
      "Africa/Conakry", "Africa/Dakar", "Africa/Freetown", "Africa/Lome", "Africa/Monrovia",
      "Africa/Nouakchott", "Africa/Ouagadougou", "Africa/Sao_Tome", "Africa/Timbuktu",
      "America/Danmarkshavn", "Atlantic/Reykjavik", "Atlantic/St_Helena", "Etc/GMT", "Etc/GMT+0",
      "Etc/GMT-0", "Etc/GMT0", "Etc/Greenwich", "Etc/UCT", "Etc/UTC", "Etc/Universal", "Etc/Zulu",
      "GMT", "GMT+0", "GMT-0", "GMT0", "Greenwich", "Iceland", "UCT", "UTC", "Universal", "Zulu"]),
  (⟨60, some ⟨120, ⟨3, 5, 0, 120⟩, ⟨10, 5, 0, 180⟩⟩⟩,
    ["Africa/Ceuta", "Arctic/Longyearbyen", "Atlantic/Jan_Mayen", "CET", "Europe/Amsterdam",
      "Europe/Andorra", "Europe/Belgrade", "Europe/Berlin", "Europe/Bratislava", "Europe/Brussels",
      "Europe/Budapest", "Europe/Busingen", "Europe/Copenhagen", "Europe/Gibraltar",
      "Europe/Ljubljana", "Europe/Luxembourg", "Europe/Madrid", "Europe/Malta", "Europe/Monaco",
      "Europe/Oslo", "Europe/Paris", "Europe/Podgorica", "Europe/Prague", "Europe/Rome",
      "Europe/San_Marino", "Europe/Sarajevo", "Europe/Skopje", "Europe/Stockholm", "Europe/Tirane",
      "Europe/Vaduz", "Europe/Vatican", "Europe/Vienna", "Europe/Warsaw", "Europe/Zagreb",
      "Europe/Zurich", "MET", "Poland"]),
  (⟨60, none⟩,
    ["Africa/Algiers", "Africa/Bangui", "Africa/Brazzaville", "Africa/Casablanca", "Africa/Douala",
      "Africa/El_Aaiun", "Africa/Kinshasa", "Africa/Lagos", "Africa/Libreville", "Africa/Luanda",
      "Africa/Malabo", "Africa/Ndjamena", "Africa/Niamey", "Africa/Porto-Novo", "Africa/Tunis",
      "Etc/GMT-1"]),
  (⟨120, some ⟨180, ⟨3, 4, 4, 3000⟩, ⟨10, 4, 4, 3000⟩⟩⟩,
    ["Asia/Gaza", "Asia/Hebron"]),
  (⟨120, some ⟨180, ⟨3, 4, 4, 1560⟩, ⟨10, 5, 0, 120⟩⟩⟩,
    ["Asia/Jerusalem", "Asia/Tel_Aviv", "Israel"]),
  (⟨120, some ⟨180, ⟨3, 5, 0, 0⟩, ⟨10, 5, 0, 0⟩⟩⟩,
    ["Asia/Beirut"]),
  (⟨120, some ⟨180, ⟨3, 5, 0, 180⟩, ⟨10, 5, 0, 240⟩⟩⟩,
    ["Asia/Famagusta", "Asia/Nicosia", "EET", "Europe/Athens", "Europe/Bucharest",
      "Europe/Chisinau", "Europe/Helsinki", "Europe/Kiev", "Europe/Kyiv", "Europe/Mariehamn",
      "Europe/Nicosia", "Europe/Riga", "Europe/Sofia", "Europe/Tallinn", "Europe/Tiraspol",
      "Europe/Uzhgorod", "Europe/Vilnius", "Europe/Zaporozhye"]),
  (⟨120, some ⟨180, ⟨4, 5, 5, 0⟩, ⟨10, 5, 4, 1440⟩⟩⟩,
    ["Africa/Cairo", "Egypt"]),
  (⟨120, none⟩,
    ["Africa/Blantyre", "Africa/Bujumbura", "Africa/Gaborone", "Africa/Harare",
      "Africa/Johannesburg", "Africa/Juba", "Africa/Khartoum", "Africa/Kigali", "Africa/Lubumbashi",
      "Africa/Lusaka", "Africa/Maputo", "Africa/Maseru", "Africa/Mbabane", "Africa/Tripoli",
      "Africa/Windhoek", "Etc/GMT-2", "Europe/Kaliningrad", "Libya"]),
  (⟨180, none⟩,
    ["Africa/Addis_Ababa", "Africa/Asmara", "Africa/Asmera", "Africa/Dar_es_Salaam",
      "Africa/Djibouti", "Africa/Kampala", "Africa/Mogadishu", "Africa/Nairobi", "Antarctica/Syowa",
      "Asia/Aden", "Asia/Amman", "Asia/Baghdad", "Asia/Bahrain", "Asia/Damascus", "Asia/Istanbul",
      "Asia/Kuwait", "Asia/Qatar", "Asia/Riyadh", "Etc/GMT-3", "Europe/Istanbul", "Europe/Kirov",
      "Europe/Minsk", "Europe/Moscow", "Europe/Simferopol", "Europe/Volgograd",
      "Indian/Antananarivo", "Indian/Comoro", "Indian/Mayotte", "Turkey", "W-SU"]),
  (⟨210, none⟩,
    ["Asia/Tehran", "Iran"]),
  (⟨240, none⟩,
    ["Asia/Baku", "Asia/Dubai", "Asia/Muscat", "Asia/Tbilisi", "Asia/Yerevan", "Etc/GMT-4",
      "Europe/Astrakhan", "Europe/Samara", "Europe/Saratov", "Europe/Ulyanovsk", "Indian/Mahe",
      "Indian/Mauritius", "Indian/Reunion"]),
  (⟨270, none⟩,
    ["Asia/Kabul"]),
  (⟨300, none⟩,
    ["Antarctica/Mawson", "Antarctica/Vostok", "Asia/Almaty", "Asia/Aqtau", "Asia/Aqtobe",
      "Asia/Ashgabat", "Asia/Ashkhabad", "Asia/Atyrau", "Asia/Dushanbe", "Asia/Karachi",
      "Asia/Oral", "Asia/Qostanay", "Asia/Qyzylorda", "Asia/Samarkand", "Asia/Tashkent",
      "Asia/Yekaterinburg", "Etc/GMT-5", "Indian/Kerguelen", "Indian/Maldives"]),
  (⟨330, none⟩,
    ["Asia/Calcutta", "Asia/Colombo", "Asia/Kolkata"]),
  (⟨345, none⟩,
    ["Asia/Kathmandu", "Asia/Katmandu"]),
  (⟨360, none⟩,
    ["Asia/Bishkek", "Asia/Dacca", "Asia/Dhaka", "Asia/Kashgar", "Asia/Omsk", "Asia/Thimbu",
      "Asia/Thimphu", "Asia/Urumqi", "Etc/GMT-6", "Indian/Chagos"]),
  (⟨390, none⟩,
    ["Asia/Rangoon", "Asia/Yangon", "Indian/Cocos"]),
  (⟨420, none⟩,
    ["Antarctica/Davis", "Asia/Bangkok", "Asia/Barnaul", "Asia/Ho_Chi_Minh", "Asia/Hovd",
      "Asia/Jakarta", "Asia/Krasnoyarsk", "Asia/Novokuznetsk", "Asia/Novosibirsk",
      "Asia/Phnom_Penh", "Asia/Pontianak", "Asia/Saigon", "Asia/Tomsk", "Asia/Vientiane",
      "Etc/GMT-7", "Indian/Christmas"]),
  (⟨480, none⟩,
    ["Antarctica/Casey", "Asia/Brunei", "Asia/Choibalsan", "Asia/Chongqing", "Asia/Chungking",
      "Asia/Harbin", "Asia/Hong_Kong", "Asia/Irkutsk", "Asia/Kuala_Lumpur", "Asia/Kuching",
      "Asia/Macao", "Asia/Macau", "Asia/Makassar", "Asia/Manila", "Asia/Shanghai", "Asia/Singapore",
      "Asia/Taipei", "Asia/Ujung_Pandang", "Asia/Ulaanbaatar", "Asia/Ulan_Bator", "Australia/Perth",
      "Australia/West", "Etc/GMT-8", "Hongkong", "PRC", "ROC", "Singapore"]),
  (⟨525, none⟩,
    ["Australia/Eucla"]),
  (⟨540, none⟩,
    ["Asia/Chita", "Asia/Dili", "Asia/Jayapura", "Asia/Khandyga", "Asia/Pyongyang", "Asia/Seoul",
      "Asia/Tokyo", "Asia/Yakutsk", "Etc/GMT-9", "Japan", "Pacific/Palau", "ROK"]),
  (⟨570, some ⟨630, ⟨10, 1, 0, 120⟩, ⟨4, 1, 0, 180⟩⟩⟩,
    ["Australia/Adelaide", "Australia/Broken_Hill", "Australia/South", "Australia/Yancowinna"]),
  (⟨570, none⟩,
    ["Australia/Darwin", "Australia/North"]),
  (⟨600, some ⟨660, ⟨10, 1, 0, 120⟩, ⟨4, 1, 0, 180⟩⟩⟩,
    ["Antarctica/Macquarie", "Australia/ACT", "Australia/Canberra", "Australia/Currie",
      "Australia/Hobart", "Australia/Melbourne", "Australia/NSW", "Australia/Sydney",
      "Australia/Tasmania", "Australia/Victoria"]),
  (⟨600, none⟩,
    ["Antarctica/DumontDUrville", "Asia/Ust-Nera", "Asia/Vladivostok", "Australia/Brisbane",
      "Australia/Lindeman", "Australia/Queensland", "Etc/GMT-10", "Pacific/Chuuk", "Pacific/Guam",
      "Pacific/Port_Moresby", "Pacific/Saipan", "Pacific/Truk", "Pacific/Yap"]),
  (⟨630, some ⟨660, ⟨10, 1, 0, 120⟩, ⟨4, 1, 0, 120⟩⟩⟩,
    ["Australia/LHI", "Australia/Lord_Howe"]),
  (⟨660, some ⟨720, ⟨10, 1, 0, 120⟩, ⟨4, 1, 0, 180⟩⟩⟩,
    ["Pacific/Norfolk"]),
  (⟨660, none⟩,
    ["Asia/Magadan", "Asia/Sakhalin", "Asia/Srednekolymsk", "Etc/GMT-11", "Pacific/Bougainville",
      "Pacific/Efate", "Pacific/Guadalcanal", "Pacific/Kosrae", "Pacific/Noumea", "Pacific/Pohnpei",
      "Pacific/Ponape"]),
  (⟨720, some ⟨780, ⟨9, 5, 0, 120⟩, ⟨4, 1, 0, 180⟩⟩⟩,
    ["Antarctica/McMurdo", "Antarctica/South_Pole", "NZ", "Pacific/Auckland"]),
  (⟨720, none⟩,
    ["Asia/Anadyr", "Asia/Kamchatka", "Etc/GMT-12", "Kwajalein", "Pacific/Fiji", "Pacific/Funafuti",
      "Pacific/Kwajalein", "Pacific/Majuro", "Pacific/Nauru", "Pacific/Tarawa", "Pacific/Wake",
      "Pacific/Wallis"]),
  (⟨765, some ⟨825, ⟨9, 5, 0, 165⟩, ⟨4, 1, 0, 225⟩⟩⟩,
    ["NZ-CHAT", "Pacific/Chatham"]),
  (⟨780, none⟩,
    ["Etc/GMT-13", "Pacific/Apia", "Pacific/Enderbury", "Pacific/Fakaofo", "Pacific/Kanton",
      "Pacific/Tongatapu"]),
  (⟨840, none⟩,
    ["Etc/GMT-14", "Pacific/Kiritimati"])]

def ofZone? (name : String) : Option Clock :=
  (zones.find? fun (_, names) => names.contains name).map (·.1)

/-- A sign, two digits of hours and two of minutes, with a colon between them or
not; or hours alone. Less than a day. -/
def ofOffset? (text : List Char) : Option Clock :=
  let amount (hours minutes : List Char) : Option Int :=
    let digits := hours ++ minutes
    if digits.length = 4 && digits.all Char.isDigit then
      let value (cs : List Char) : Int := (String.ofList cs).toNat?.getD 0
      let minutes := 60 * value hours + value minutes
      if minutes < 1440 then some minutes else none
    else none
  let size :=
    match text.drop 1 with
    | [a, b, ':', c, d] => amount [a, b] [c, d]
    | [a, b, c, d] => amount [a, b] [c, d]
    | [a, b] => amount [a, b] ['0', '0']
    | _ => none
  match text.head?, size with
  | some '+', some minutes => some ⟨minutes, none⟩
  | some '-', some minutes => some ⟨-minutes, none⟩
  | _, _ => none

end Clock
end WindowFold.Calendar
