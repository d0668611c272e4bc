import Dayjaview.Api.Mirroring
import Dayjaview.Api.Topics
import Dayjaview.Calculations.Attention
import Dayjaview.Calculations.ExactWeights
import Dayjaview.Calculations.Foresight
import Dayjaview.Calculations.MetricOrder
import Dayjaview.Calculations.TurnoverForesight
import Dayjaview.Catalyst.Revisions
import Dayjaview.Catalyst.Supplemental
import Dayjaview.Events.History
import Dayjaview.Events.OutboxLeases
import Dayjaview.Historical.BackfillRuns
import Dayjaview.Historical.PriceChains
import Dayjaview.HistoricalMatching.HandedOut
import Dayjaview.Identity.Mutations
import Dayjaview.Identity.ReturnTo
import Dayjaview.Identity.SavedWalks
import Dayjaview.Infostock.HistoryKeys
import Dayjaview.Kiwoom.GatewayRuns
import Dayjaview.Kiwoom.LiveObservations
import Dayjaview.Kiwoom.Settling
import Dayjaview.Llm.Grounding
import Dayjaview.News.IngestionRuns
import Dayjaview.Ontology.AmountLiterals
import Dayjaview.Ontology.CacheKeys
import Dayjaview.Ontology.CompanyResolution
import Dayjaview.Ontology.DailyCounts
import Dayjaview.Ontology.Directions
import Dayjaview.Ontology.EventDedupFacts
import Dayjaview.Ontology.MoneyClauses
import Dayjaview.Ontology.OutcomeBases
import Dayjaview.Ontology.QuestionCatalog
import Dayjaview.Ontology.QuestionDates
import Dayjaview.Operator.Agreement
import Dayjaview.Operator.Concurrency
import Dayjaview.Pipeline.HistoryRuns
import Dayjaview.Pipeline.Leaders
import Dayjaview.Pipeline.Publication
import Dayjaview.Pipeline.RankHistory
import Dayjaview.Pipeline.TradingDay
import Dayjaview.Realtime.HysteresisRedelivery
import Dayjaview.Realtime.Recovery
import Dayjaview.Reference.FloatLineage
import Dayjaview.Reference.PriceOrder
import Dayjaview.Reference.Store
