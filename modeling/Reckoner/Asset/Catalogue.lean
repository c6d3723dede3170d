import Reckoner.Asset.Basic

/-!
# The assets

* `fiatCurrencies`, `cryptoAssets` — all assets, in the order in which they are listed.
* `fiat?`, `crypto?` — the asset with a code.
-/

namespace Reckoner.Asset

/-- The fiat currencies. -/
def fiatCurrencies : List Asset :=
  [⟨.fiat, "USD", "US Dollar", "$", ["usd", "us dollar", "us dollars", "dollar", "dollars", "$"]⟩,
   ⟨.fiat, "EUR", "Euro", "€", ["eur", "euro", "euros", "€"]⟩,
   ⟨.fiat, "GBP", "British Pound", "£", ["gbp", "british pound", "british pounds",
      "pound sterling", "pounds sterling", "£"]⟩,
   ⟨.fiat, "JPY", "Japanese Yen", "JPY", ["jpy", "japanese yen", "yen", "jp¥", "¥"]⟩,
   ⟨.fiat, "INR", "Indian Rupee", "₹", ["inr", "indian rupee", "indian rupees", "rupee",
      "rupees", "₹"]⟩,
   ⟨.fiat, "AUD", "Australian Dollar", "A$", ["aud", "australian dollar", "australian dollars",
      "a$"]⟩,
   ⟨.fiat, "CAD", "Canadian Dollar", "C$", ["cad", "canadian dollar", "canadian dollars", "c$"]⟩,
   ⟨.fiat, "CHF", "Swiss Franc", "CHF", ["chf", "swiss franc", "swiss francs"]⟩,
   ⟨.fiat, "CNY", "Chinese Yuan", "CNY", ["cny", "chinese yuan", "yuan", "renminbi", "rmb",
      "cn¥"]⟩,
   ⟨.fiat, "HKD", "Hong Kong Dollar", "HK$", ["hkd", "hong kong dollar", "hong kong dollars",
      "hk$"]⟩,
   ⟨.fiat, "SGD", "Singapore Dollar", "S$", ["sgd", "singapore dollar", "singapore dollars",
      "s$"]⟩,
   ⟨.fiat, "SEK", "Swedish Krona", "SEK", ["sek", "swedish krona"]⟩,
   ⟨.fiat, "NOK", "Norwegian Krone", "NOK", ["nok", "norwegian krone"]⟩,
   ⟨.fiat, "DKK", "Danish Krone", "DKK", ["dkk", "danish krone"]⟩,
   ⟨.fiat, "PLN", "Polish Zloty", "PLN", ["pln", "polish zloty", "zloty"]⟩,
   ⟨.fiat, "CZK", "Czech Koruna", "CZK", ["czk", "czech koruna"]⟩,
   ⟨.fiat, "HUF", "Hungarian Forint", "HUF", ["huf", "hungarian forint", "forint"]⟩,
   ⟨.fiat, "RON", "Romanian Leu", "RON", ["ron", "romanian leu"]⟩,
   ⟨.fiat, "BGN", "Bulgarian Lev", "BGN", ["bgn", "bulgarian lev"]⟩,
   ⟨.fiat, "BRL", "Brazilian Real", "R$", ["brl", "brazilian real", "r$"]⟩,
   ⟨.fiat, "MXN", "Mexican Peso", "MX$", ["mxn", "mexican peso", "mx$"]⟩,
   ⟨.fiat, "ZAR", "South African Rand", "ZAR", ["zar", "south african rand", "rand"]⟩,
   ⟨.fiat, "TRY", "Turkish Lira", "₺", ["try", "turkish lira", "lira", "₺"]⟩,
   ⟨.fiat, "THB", "Thai Baht", "THB", ["thb", "thai baht", "baht"]⟩,
   ⟨.fiat, "MYR", "Malaysian Ringgit", "MYR", ["myr", "malaysian ringgit", "ringgit"]⟩,
   ⟨.fiat, "IDR", "Indonesian Rupiah", "IDR", ["idr", "indonesian rupiah", "rupiah"]⟩,
   ⟨.fiat, "PHP", "Philippine Peso", "₱", ["php", "philippine peso", "philippine pesos", "₱"]⟩,
   ⟨.fiat, "KRW", "South Korean Won", "₩", ["krw", "south korean won", "korean won", "won", "₩"]⟩,
   ⟨.fiat, "ILS", "Israeli New Shekel", "ILS", ["ils", "israeli shekel", "new shekel", "shekel"]⟩,
   ⟨.fiat, "ISK", "Icelandic Krona", "ISK", ["isk", "icelandic krona"]⟩]

/-- The crypto assets. -/
def cryptoAssets : List Asset :=
  [⟨.coin "bitcoin", "BTC", "Bitcoin", "₿", ["btc", "bitcoin", "₿"]⟩,
   ⟨.coin "ethereum", "ETH", "Ethereum", "ETH", ["eth", "ethereum"]⟩,
   ⟨.coin "solana", "SOL", "Solana", "SOL", ["sol", "solana"]⟩,
   ⟨.coin "binancecoin", "BNB", "BNB", "BNB", ["bnb", "binance coin", "binancecoin"]⟩,
   ⟨.coin "ripple", "XRP", "XRP", "XRP", ["xrp", "ripple"]⟩,
   ⟨.coin "cardano", "ADA", "Cardano", "ADA", ["ada", "cardano"]⟩,
   ⟨.coin "dogecoin", "DOGE", "Dogecoin", "DOGE", ["doge", "dogecoin"]⟩,
   ⟨.coin "polkadot", "DOT", "Polkadot", "DOT", ["dot", "polkadot"]⟩,
   ⟨.coin "litecoin", "LTC", "Litecoin", "LTC", ["ltc", "litecoin"]⟩,
   ⟨.coin "bitcoin-cash", "BCH", "Bitcoin Cash", "BCH", ["bch", "bitcoin cash"]⟩,
   ⟨.coin "chainlink", "LINK", "Chainlink", "LINK", ["link", "chainlink"]⟩,
   ⟨.coin "avalanche-2", "AVAX", "Avalanche", "AVAX", ["avax", "avalanche"]⟩,
   ⟨.coin "tron", "TRX", "TRON", "TRX", ["trx", "tron"]⟩,
   ⟨.coin "toncoin", "TON", "Toncoin", "TON", ["ton", "toncoin"]⟩,
   ⟨.coin "shiba-inu", "SHIB", "Shiba Inu", "SHIB", ["shib", "shiba", "shiba inu"]⟩,
   ⟨.coin "stellar", "XLM", "Stellar", "XLM", ["xlm", "stellar", "lumens"]⟩,
   ⟨.coin "uniswap", "UNI", "Uniswap", "UNI", ["uni", "uniswap"]⟩,
   ⟨.coin "near", "NEAR", "NEAR Protocol", "NEAR", ["near", "near protocol"]⟩,
   ⟨.coin "cosmos", "ATOM", "Cosmos", "ATOM", ["atom", "cosmos"]⟩,
   ⟨.coin "internet-computer", "ICP", "Internet Computer", "ICP", ["icp",
      "internet computer"]⟩,
   ⟨.coin "filecoin", "FIL", "Filecoin", "FIL", ["fil", "filecoin"]⟩,
   ⟨.coin "ethereum-classic", "ETC", "Ethereum Classic", "ETC", ["etc",
      "ethereum classic"]⟩,
   ⟨.coin "matic-network", "MATIC", "Polygon", "MATIC", ["matic", "polygon"]⟩,
   ⟨.stablecoin "tether", "USDT", "Tether", "USDT", ["usdt", "tether"]⟩,
   ⟨.stablecoin "usd-coin", "USDC", "USD Coin", "USDC", ["usdc", "usd coin"]⟩]

/-- The fiat currency with a code. -/
def fiat? (code : String) : Option Asset := fiatCurrencies.find? (·.code == code)

/-- The crypto asset with a code. -/
def crypto? (code : String) : Option Asset := cryptoAssets.find? (·.code == code)

end Reckoner.Asset
